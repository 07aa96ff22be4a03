import ConventionLint.Text.Width

/-! Tables as lines of text. -/
namespace ConventionLint

open Text

/-- A title, the names of the columns, and rows with a cell for each of them. -/
structure Table where
  title : String
  header : List String
  rows : List (List String)

namespace Table

def spaces (n : Nat) : String := String.ofList (List.replicate n ' ')

def padded (w : Nat) (cell : String) : String := cell ++ spaces (w - width cell)

/-- The width of each column: that of its widest cell. -/
def widths (t : Table) : List Nat :=
  t.rows.foldl (fun ws row => (ws.zip row).map fun (w, cell) => max w (width cell))
    (t.header.map width)

/-- Cells with two spaces between them and one at each end. -/
def line (widths : List Nat) (cells : List String) : String :=
  " " ++ "  ".intercalate ((widths.zip cells).map fun (w, cell) => padded w cell) ++ " "

/-- The title in the middle; the right gets more space if both sides cannot have the same. -/
def titleLine (total : Nat) (title : String) : String :=
  let left := (total - width title) / 2
  spaces left ++ title ++ spaces (total - width title - left)

def lines (t : Table) : List String :=
  let ws := t.widths
  let head := line ws t.header
  titleLine (width head) t.title :: head :: t.rows.map (line ws)

end Table

end ConventionLint
