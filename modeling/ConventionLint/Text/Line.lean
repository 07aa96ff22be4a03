import ConventionLint.Text.Blank

/-! Texts for one line of a message. -/
namespace ConventionLint.Text

/-- Every run of blanks becomes one space; `blank` says that the character before was one. -/
def collapseFrom (blank : Bool) : List Char → List Char
  | [] => []
  | c :: r =>
    if isBlank c then (if blank then [] else [' ']) ++ collapseFrom true r
    else c :: collapseFrom false r

/-- The text on one line, with single spaces between its words and none around them. -/
def collapse (cs : List Char) : List Char := trim (collapseFrom false cs)

/-- The first `n` characters; a negative number counts those that are left out. -/
def takeSigned (n : Int) (cs : List Char) : List Char :=
  cs.take (if n < 0 then cs.length + n else n).toNat

/-- The text on one line; what does not fit into `limit` characters is cut and marked by dots. -/
def oneLine (text : String) (limit : Int) : String :=
  let line := collapse text.toList
  String.ofList (if line.length > limit then takeSigned (limit - 3) line ++ ['.', '.', '.'] else line)

/-- The limit that messages keep to. -/
def lineLimit : Int := 160

/-- Texts in single quotes, the last joined by "or". -/
def alternatives (items : List String) : String :=
  let marked := items.map fun s => "'" ++ s ++ "'"
  if marked.length ≤ 2 then " or ".intercalate marked
  else ", ".intercalate marked.dropLast ++ ", or " ++ marked.getLastD ""

end ConventionLint.Text
