import ConventionLint.Data.Value

/-! JSON texts of values, indented by two spaces. -/
namespace ConventionLint.Data.Json

open Text

/-- A unit of 16 bits by its code. -/
def unitEscape (n : Nat) : List Char := '\\' :: 'u' :: hexDigits 4 n

/-- A character by its code; above the first plane that are two units. -/
def charEscape (c : Char) : List Char :=
  let n := c.toNat
  if n < 0x10000 then unitEscape n
  else unitEscape (0xd800 + (n - 0x10000) / 0x400) ++ unitEscape (0xdc00 + (n - 0x10000) % 0x400)

/-- A character inside a text; `ascii` keeps all others out. -/
def writeChar (ascii : Bool) (c : Char) : List Char :=
  if c = '"' then ['\\', '"']
  else if c = '\\' then ['\\', '\\']
  else if c = '\n' then ['\\', 'n']
  else if c = '\r' then ['\\', 'r']
  else if c = '\t' then ['\\', 't']
  else if c = '\x0c' then ['\\', 'f']
  else if c = '\x08' then ['\\', 'b']
  else if c < ' ' || (ascii && '~' < c) then charEscape c
  else [c]

def writeText (ascii : Bool) (s : String) : List Char :=
  '"' :: s.toList.flatMap (writeChar ascii) ++ ['"']

/-- A number; the ones that are not finite have names. -/
def writeNumber : Number → List Char
  | .int n => (toString n).toList
  | .float x =>
    match magnitude x with
    | .finite _ => (shortestText x).toList
    | .infinite => (sign (isNegative x) ++ "Infinity").toList
    | .notNumber => "NaN".toList

/-- A line end and the spaces before the next line. -/
def newLine (depth : Nat) : List Char := '\n' :: List.replicate (2 * depth) ' '

/-- Parts on lines of their own between two marks; without parts all is on one line. -/
def writeBlock (first last : Char) (depth : Nat) (parts : List (List Char)) : List Char :=
  if parts.isEmpty then [first, last]
  else
    let lines := parts.map (newLine (depth + 1) ++ ·)
    first :: List.intercalate [','] lines ++ newLine depth ++ [last]

mutual

def write (ascii : Bool) (depth : Nat) : Value → List Char
  | .null => "null".toList
  | .bool b => (if b then "true" else "false").toList
  | .number n => writeNumber n
  | .text s => writeText ascii s
  | .list items => writeBlock '[' ']' depth (writeItems ascii (depth + 1) items)
  | .map entries => writeBlock '{' '}' depth (writeEntries ascii (depth + 1) entries)
  | .other plain _ => writeText ascii plain

def writeItems (ascii : Bool) (depth : Nat) : List Value → List (List Char)
  | [] => []
  | v :: r => write ascii depth v :: writeItems ascii depth r

def writeEntries (ascii : Bool) (depth : Nat) : List (Value × Value) → List (List Char)
  | [] => []
  | (k, v) :: r =>
    (writeText ascii k.plain ++ ':' :: ' ' :: write ascii depth v) :: writeEntries ascii depth r

end

/-- The text of a value; with `ascii` it has no other characters. -/
def render (ascii : Bool) (v : Value) : String := String.ofList (write ascii 0 v)

end ConventionLint.Data.Json
