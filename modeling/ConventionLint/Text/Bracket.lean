import ConventionLint.Text.Quoted

/-! Brackets and where they close. Only brackets of the same kind count. -/
namespace ConventionLint.Text

inductive Bracket where
  | brace
  | square
  | round
  | angle
deriving DecidableEq

namespace Bracket

def opening : Bracket → Char
  | brace => '{'
  | square => '['
  | round => '('
  | angle => '<'

def closing : Bracket → Char
  | brace => '}'
  | square => ']'
  | round => ')'
  | angle => '>'

def all : List Bracket := [brace, square, round, angle]

def ofOpening? (c : Char) : Option Bracket := all.find? fun b => b.opening = c

/-- Where `depth` open brackets are closed, in a text that starts at position `i`. -/
def closeFrom (b : Bracket) (i depth : Nat) : List Char → Option Nat
  | [] => none
  | c :: r =>
    if c = b.opening then closeFrom b (i + 1) (depth + 1) r
    else if c = b.closing then
      if depth ≤ 1 then some i else closeFrom b (i + 1) (depth - 1) r
    else closeFrom b (i + 1) depth r

/-- Where the bracket at position `i` is closed. -/
def closeAt (b : Bracket) (text : List Char) (i : Nat) : Option Nat :=
  match text.drop i with
  | [] => none
  | c :: r => if c = b.opening then b.closeFrom (i + 1) 1 r else none

/-- The text between the bracket at position `i` and the one that closes it. -/
def insideAt (b : Bracket) (text : List Char) (i : Nat) : Option (List Char) :=
  (b.closeAt text i).map fun j => (text.drop (i + 1)).take (j - (i + 1))

end Bracket

def isOpening (c : Char) : Bool := Bracket.all.any fun b => b.opening = c

def isClosing (c : Char) : Bool := Bracket.all.any fun b => b.closing = c

/-- A character that was asked to be closed and is no opening bracket. -/
structure NoBracket where
  char : Char

def NoBracket.message (e : NoBracket) : String := quoted e.char.toString

/-- The kind of bracket that stands at a position, if it is the one that is asked for. -/
def bracketAt (text : List Char) (i : Int) (mark : String) : Except NoBracket (Option Bracket) :=
  if i < 0 then .ok none
  else match text[i.toNat]? with
    | none => .ok none
    | some c =>
      if mark.toList = [c] then
        match Bracket.ofOpening? c with
        | some b => .ok (some b)
        | none => .error ⟨c⟩
      else .ok none

/-- Where the bracket at a position is closed, if it is the one that is asked for. -/
def closeOf (text : List Char) (i : Int) (mark : String) : Except NoBracket (Option Nat) :=
  (bracketAt text i mark).map fun b => b.bind (·.closeAt text i.toNat)

/-- The text inside the bracket at a position, if it is the one that is asked for. -/
def insideOf (text : List Char) (i : Int) (mark : String) : Except NoBracket (Option (List Char)) :=
  (bracketAt text i mark).map fun b => b.bind (·.insideAt text i.toNat)

end ConventionLint.Text
