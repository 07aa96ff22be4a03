/-! The front and the back of a text. -/
namespace ConventionLint.Text

/-- What follows `front` in a text that starts with it. -/
def after? : (front cs : List Char) → Option (List Char)
  | [], cs => some cs
  | _ :: _, [] => none
  | f :: fs, c :: cs => if f = c then after? fs cs else none

/-- What precedes `back` in a text that ends with it. -/
def before? (back cs : List Char) : Option (List Char) :=
  (after? back.reverse cs.reverse).map List.reverse

/-- Whether `part` stands somewhere in a text. -/
def contains (part : List Char) : List Char → Bool
  | [] => part.isEmpty
  | c :: r => (after? part (c :: r)).isSome || contains part r

/-- The parts of a text between the separators. -/
def splitAt (separator : Char) : List Char → List (List Char)
  | [] => [[]]
  | c :: r =>
    let parts := splitAt separator r
    if c = separator then [] :: parts
    else (c :: parts.headD []) :: parts.tail

/-- The parts before and behind the last separator. -/
def splitLast? (separator : Char) : List Char → Option (List Char × List Char)
  | [] => none
  | c :: r =>
    match splitLast? separator r with
    | some (front, back) => some (c :: front, back)
    | none => if c = separator then some ([], r) else none

/-- Drops all of a character from the end. -/
def dropEnd (last : Char) (cs : List Char) : List Char := (cs.reverse.dropWhile (· = last)).reverse

end ConventionLint.Text
