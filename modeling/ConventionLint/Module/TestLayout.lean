import ConventionLint.Module.ObjectType

/-! The calls that stand outside all braces of a test module. -/
namespace ConventionLint.TestLayout

open Text

/-- The rest of a literal up to and with its closing mark. -/
def literalEnd (mark : Char) (multiline : Bool) : List Char → Option Nat
  | [] => none
  | '\\' :: _ :: r => (literalEnd mark multiline r).map (· + 2)
  | c :: r =>
    if c = mark then some 1
    else if c = '\\' || (c = '\n' && !multiline) then none
    else (literalEnd mark multiline r).map (· + 1)

/-- The length of a comment, a string or a template. -/
def noise : List Char → Option Nat
  | '/' :: r => ObjectType.lineComment ('/' :: r) <|> ObjectType.blockComment ('/' :: r)
  | '`' :: r => (literalEnd '`' true r).map (· + 1)
  | '"' :: r => (literalEnd '"' false r).map (· + 1)
  | '\'' :: r => (literalEnd '\'' false r).map (· + 1)
  | _ => none

/-- Of a comment only the line feeds are kept, of a literal only that there is one. -/
def quietNoise (cs : List Char) : List Char :=
  if cs.head? = some '/' then cs.filter (· = '\n') else ['"', '"']

/-- The text without comments and with empty literals, so that braces inside them do not count. -/
def scrub (cs : List Char) : List Char := replaceAll noise quietNoise cs

/-- Whether a line starts with a call of one of the names. -/
def startsCall (names : List String) (line : List Char) : Bool :=
  names.any fun name =>
    (after? name.toList (trimLeft line)).any fun r => (trimLeft r).head? = some '('

def isTest (line : List Char) : Bool := startsCall ["test", "it"] line

def isDescribe (line : List Char) : Bool := startsCall ["describe"] line

/-- Brace depth behind a line; there is none below 0. -/
def depthAfter (depth : Nat) (line : List Char) : Nat :=
  depth + line.count '{' - line.count '}'

/-- The lines at which the brace depth is 0. -/
def outerLines (depth : Nat) : List (List Char) → List (List Char)
  | [] => []
  | line :: r =>
    let rest := outerLines (depthAfter depth line) r
    if depth = 0 then line :: rest else rest

/-- The lines that call outside all braces. -/
structure Calls where
  tests : List String
  describes : List String
deriving DecidableEq

def calls (content : String) : Calls :=
  let outer := outerLines 0 (lines (scrub content.toList))
  let text (line : List Char) := String.ofList (trim line)
  { tests := (outer.filter isTest).map text
    describes := (outer.filter isDescribe).map text }

end ConventionLint.TestLayout
