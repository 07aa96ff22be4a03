import ConventionLint.Source.Grammar.Type

/-! Markup elements. The names of an opening and a closing tag are not compared. -/
namespace ConventionLint.Source

/-- Text between two elements. A line break and the blanks around it alone are no text; braces, angle
brackets and references end it. -/
def elementText (cs : List Char) : List Char :=
  cs.takeWhile fun c => !(c = '<' || c = '>' || c = '{' || c = '}' || c = '&')

/-- Whether anything but line breaks and the blanks after them stands in the text. -/
def holdsText (afterBreak : Bool) : List Char → Bool
  | [] => false
  | c :: r =>
    if c = '\n' then holdsText true r
    else !(afterBreak && isLineGap c) || holdsText afterBreak r

/-- A character reference such as `&amp;`. -/
def referenceLength : List Char → Nat
  | '&' :: '#' :: x :: r =>
    let hex := x = 'x' || x = 'X'
    let digits := if hex then r.takeWhile isHexDigit else (x :: r).takeWhile Char.isDigit
    let most := if hex then 6 else 5
    let n := digits.length + if hex then 3 else 2
    if digits.length ≠ 0 ∧ digits.length ≤ most ∧ (('&' :: '#' :: x :: r).drop n).head? = some ';'
    then n + 1 else 0
  | '&' :: r =>
    let n := (r.takeWhile Char.isAlpha).length
    if n ≠ 0 ∧ n ≤ 30 ∧ (r.drop n).head? = some ';' then n + 2 else 0
  | _ => 0

/-- A tag or attribute name, which may hold hyphens. -/
def tagNameLength (cs : List Char) : Nat :=
  match nameLength cs with
  | 0 => 0
  | n => n + ((cs.drop n).takeWhile fun c => c = '-' || c.isAlphanum || c = '_' || c = '$').length

/-- Text of an attribute's string, up to its quote or a character reference. -/
def attributeTextLength (quote : Char) : List Char → Nat
  | [] => 0
  | '&' :: c :: r => if c = '#' || c.isAlpha then 0 else 1 + attributeTextLength quote (c :: r)
  | c :: r => if c = quote then 0 else 1 + attributeTextLength quote r

namespace Reader

variable (g : Phrases)

def tagName : Reader Unit := do
  gaps
  run .identifier (tagNameLength (← here))

def reference : Reader Unit := do
  run .literal (referenceLength (← here))

def attributeString (quote : Char) (mark : String) : Reader Unit := node .string do
  lit mark
  many ((do run .fragment (attributeTextLength quote (← here))) <|> reference)
  litHere mark

def embedded : Reader Unit := node .expression do
  braces (maybe (spread g <|> do
    g (.expression .inner)
    many do lit ","; g (.expression .inner)))

def tagAttribute : Reader Unit := embedded g <|> node .expression do
  tagName
  maybe do lit ":"; tagName
  maybe do
    lit "="
    oneOf [attributeString '"' "\"", attributeString '\'' "'", embedded g, g .element]

def elementName : Reader Unit := do
  tagName
  maybe do lit ":"; tagName
  many do lit "."; name .identifier

def closingTag : Reader Unit := do
  lit "<"
  lit "/"
  maybe elementName
  lit ">"

def child : Reader Unit := oneOf
  [do
    let text := elementText (← here)
    guard (holdsText false text)
    run .literal text.length,
   do gaps; reference,
   do guard (!(← can closingTag)); g .element,
   embedded g]

def element : Reader Unit := node .expression do
  lit "<"
  maybe do
    elementName
    maybe (typeArguments g)
    many (tagAttribute g)
  (do lit "/"; litHere ">") <|> do
    lit ">"
    many (child g)
    closingTag

end Reader

end ConventionLint.Source
