import ConventionLint.Text.Blank
import ConventionLint.Text.Bracket
import ConventionLint.Text.Front
import ConventionLint.Text.Word

/-! Object types that a text declares, read without its tree. -/
namespace ConventionLint

namespace Text

/-- The text with every lexeme replaced: `lexeme` gives the length of the one at the front of a
text, `value` what stands for it. The first argument counts characters of a lexeme still to pass. -/
def replaceFrom (lexeme : List Char → Option Nat) (value : List Char → List Char) :
    Nat → List Char → List Char
  | _, [] => []
  | n + 1, _ :: r => replaceFrom lexeme value n r
  | 0, c :: r =>
    match lexeme (c :: r) with
    | some (n + 1) => value ((c :: r).take (n + 1)) ++ replaceFrom lexeme value n r
    | _ => c :: replaceFrom lexeme value 0 r

def replaceAll (lexeme : List Char → Option Nat) (value : List Char → List Char)
    (cs : List Char) : List Char :=
  replaceFrom lexeme value 0 cs

end Text

open Text

/-- A member `name: type`, as written. -/
structure Property where
  name : String
  typeText : String
  optional : Bool := false
deriving DecidableEq

/-- The members of `type alias = { ... }`. -/
structure ObjectType where
  typeName : String
  properties : List Property
deriving DecidableEq

namespace ObjectType

def names (t : ObjectType) : List String := t.properties.map (·.name)

/-- The first member of a name. -/
def get? (t : ObjectType) (name : String) : Option Property :=
  t.properties.find? fun p => p.name = name

/-- First characters of a name. -/
def isNameStart (c : Char) : Bool := c.isAlpha || c = '_' || c = '$'

def isNameChar (c : Char) : Bool := isWord c || c = '$'

/-- A member's key, a name or a quoted text, and what follows. -/
def key? : List Char → Option (List Char × List Char)
  | [] => none
  | c :: r =>
    if isNameStart c then some (c :: r.takeWhile isNameChar, r.dropWhile isNameChar)
    else if c = '\'' || c = '"' then
      match r.dropWhile (· ≠ c) with
      | [] => none
      | q :: rest => some (c :: r.takeWhile (· ≠ c) ++ [q], rest)
    else none

/-- A key, whether a question mark follows it, and what stands behind the colon. -/
def head? (cs : List Char) : Option (List Char × Bool × List Char) := do
  let (key, r) ← key? cs
  let optional := r.head? = some '?'
  match trimLeft (if optional then r.tail else r) with
  | ':' :: rest => some (key, optional, rest)
  | _ => none

/-- What follows a word and at least one blank. -/
def afterWord? (word : String) (cs : List Char) : Option (List Char) :=
  match after? word.toList cs with
  | some (c :: r) => if isBlank c then some (trimLeft r) else none
  | _ => none

/-- The head of a member, whose key `readonly` may precede. -/
def memberHead? (cs : List Char) : Option (List Char × Bool × List Char) :=
  (afterWord? "readonly" cs).bind head? <|> head? cs

/-- A whole member; its type is not empty. -/
def member? (cs : List Char) : Option Property := do
  let (key, optional, r) ← memberHead? cs
  let typeText := trim r
  if typeText.isEmpty then failure
  return {
    name := String.ofList (trimBoth (fun c => c = '\'' || c = '"') key)
    typeText := String.ofList typeText
    optional }

/-- Bracket depth behind a character. The end of an arrow closes nothing, and there is no depth
below 0. -/
def depthAfter (depth : Nat) (last : Option Char) (c : Char) : Nat :=
  if isOpening c then depth + 1
  else if isClosing c && !(c = '>' && last = some '=') then depth - 1
  else depth

/-- Whether a character outside all brackets ends the member before it, given in reverse: marks do,
and a line feed does if there is a member both before and behind it. -/
def endsMember (before : List Char) (c : Char) (rest : List Char) : Bool :=
  c = ';' || c = ',' ||
    (c = '\n' && before.contains ':' && (memberHead? (trimLeft rest)).isSome)

/-- The segments of a body, the first of which starts with `current` in reverse; `last` is the
character before that is not blank. -/
def segmentsFrom (depth : Nat) (last : Option Char) (current : List Char) :
    List Char → List (List Char)
  | [] => [current.reverse]
  | c :: r =>
    let depth := depthAfter depth last c
    let last := if isBlank c then last else some c
    if depth = 0 && endsMember current c r then
      current.reverse :: segmentsFrom depth last [] r
    else segmentsFrom depth last (c :: current) r

/-- The members of a body as written, without blanks around them. -/
def splitMembers (body : List Char) : List (List Char) :=
  ((segmentsFrom 0 none [] body).map trim).filter fun s => !s.isEmpty

/-- The length up to and with the first end of a block comment. -/
def blockEnd : List Char → Option Nat
  | '*' :: '/' :: _ => some 2
  | _ :: r => (blockEnd r).map (· + 1)
  | [] => none

def blockComment : List Char → Option Nat
  | '/' :: '*' :: r => (blockEnd r).map (· + 2)
  | _ => none

def lineComment : List Char → Option Nat
  | '/' :: '/' :: r => some (2 + (r.takeWhile (· ≠ '\n')).length)
  | _ => none

/-- Drops block comments, then line comments. -/
def dropComments (cs : List Char) : List Char :=
  replaceAll lineComment (fun _ => []) (replaceAll blockComment (fun _ => []) cs)

/-- What may follow at least one blank, after the longest run of them first. -/
def afterBlanks : List Char → List (List Char)
  | [] => []
  | c :: r => if isBlank c then afterBlanks r ++ [r] else []

/-- Whether a word starts or ends between two characters. -/
def isBoundary (before after : Option Char) : Bool :=
  before.any isWord ≠ after.any isWord

/-- Skips type parameters, which hold no equals sign. -/
def afterParameters? : List Char → Option (List Char)
  | '<' :: r =>
    let inside := r.takeWhile (· ≠ '=')
    if (inside.reverse.dropWhile isBlank).head? = some '>' then some (r.dropWhile (· ≠ '='))
    else none
  | cs => some cs

/-- From behind an alias, whose last character is given, into the braces it is declared to be. -/
def intoBraces? (last : Option Char) (cs : List Char) : Option (List Char) := do
  if !isBoundary last cs.head? then failure
  let r ← afterParameters? (trimLeft cs)
  let r ← after? ['='] (trimLeft r)
  after? [Bracket.brace.opening] (trimLeft r)

/-- From the word `type` into the braces of an alias. -/
def intoAlias? (typeName cs : List Char) : Option (List Char) := do
  let r ← after? "type".toList cs
  (afterBlanks r).findSome? fun s => do
    intoBraces? (typeName.getLast? <|> some ' ') (← after? typeName s)

/-- From the start of a declaration into its braces. One that need not be exported must not
follow a name directly. -/
def intoDeclaration? (typeName : List Char) (exported : Bool) (before : Option Char)
    (cs : List Char) : Option (List Char) :=
  let export? := (afterWord? "export" cs).bind (intoAlias? typeName)
  if exported then export?
  else if before.any isNameChar then none
  else export? <|> intoAlias? typeName cs

/-- From the first declaration of an alias into its braces. -/
def search? (typeName : List Char) (exported : Bool) (before : Option Char) :
    List Char → Option (List Char)
  | [] => none
  | c :: r =>
    intoDeclaration? typeName exported before (c :: r) <|> search? typeName exported (some c) r

/-- The object type that a text declares as `alias`: the first declaration counts, and its braces
have to close. -/
def find? (text typeName : String) (exported : Bool) : Option ObjectType := do
  let r ← search? typeName.toList exported none text.toList
  let n ← Bracket.brace.closeFrom 0 1 r
  some ⟨typeName, (splitMembers (dropComments (r.take n))).filterMap member?⟩

/-- The name in `typeof name`, if a type is just that. -/
def typeofName? (typeText : String) : Option String := do
  match ← afterWord? "typeof" (trim typeText.toList) with
  | [] => none
  | c :: r => if isNameStart c && r.all isNameChar then some (String.ofList (c :: r)) else none

/-- The variable whose type a property of an exported alias has. -/
def typeofProperty? (text typeName property : String) : Option String := do
  typeofName? (← (← find? text typeName true).get? property).typeText

end ObjectType

end ConventionLint
