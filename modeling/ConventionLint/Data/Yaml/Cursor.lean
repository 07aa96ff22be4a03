/-! A place in a YAML text. -/
namespace ConventionLint.Data.Yaml

/-- Characters that end a line. -/
def isBreak (c : Char) : Bool :=
  c = '\n' || c = '\r' || c = '\u0085' || c = '\u2028' || c = '\u2029'

/-- What a line end stands for: most are line feeds. -/
def breakValue (c : Char) : Char := if c = '\u2028' || c = '\u2029' then c else '\n'

/-- Stands for the end of the text, which has no such character. -/
def endMark : Char := '\x00'

def isEndOrBreak (c : Char) : Bool := c = endMark || isBreak c

/-- Characters that no name and no plain word goes on with. -/
def isGap (c : Char) : Bool := c = ' ' || c = '\t' || isEndOrBreak c

/-- A gap without the tab. -/
def isSpaceOrEnd (c : Char) : Bool := c = ' ' || isEndOrBreak c

/-- Characters that may stand in a text. -/
def isAllowed (c : Char) : Bool :=
  c = '\t' || c = '\n' || c = '\r' || (' ' ≤ c && c ≤ '~') || c = '\u0085'
    || ('\u00a0' ≤ c && c ≤ '\ufffd') || 0x10000 ≤ c.toNat

structure Cursor where
  rest : List Char
  index : Nat := 0
  line : Nat := 0
  column : Nat := 0

namespace Cursor

def peek (c : Cursor) (n : Nat := 0) : Char := c.rest.getD n endMark

/-- One character on. A byte order mark takes no column. -/
def next (c : Cursor) : Cursor :=
  match c.rest with
  | [] => c
  | x :: r =>
    if isBreak x then ⟨r, c.index + 1, c.line + 1, 0⟩
    else ⟨r, c.index + 1, c.line, if x = '\ufeff' then c.column else c.column + 1⟩

def skip : Nat → Cursor → Cursor
  | 0, c => c
  | n + 1, c => skip n c.next

/-- The place where only `rest` is left. -/
def jump (c : Cursor) (rest : List Char) : Cursor := c.skip (c.rest.length - rest.length)

def skipSpaces (c : Cursor) : Cursor := c.jump (c.rest.dropWhile (· = ' '))

def skipLine (c : Cursor) : Cursor := c.jump (c.rest.dropWhile fun x => !isBreak x)

end Cursor

/-- Whether a line starts with the mark that starts or ends a document. -/
def isSeparator : List Char → Bool
  | '-' :: '-' :: '-' :: r => isGap (r.headD endMark)
  | '.' :: '.' :: '.' :: r => isGap (r.headD endMark)
  | _ => false

/-- Line feeds that are left of a run of line ends: a single one becomes a space. -/
def foldBreaks (first : Char) (more : List Char) : List Char :=
  (if breakValue first ≠ '\n' then [breakValue first] else if more.isEmpty then [' '] else []) ++ more

end ConventionLint.Data.Yaml
