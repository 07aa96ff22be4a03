/-! Sets of characters, white space and line boundaries of plain text. -/
namespace ConventionLint.Text

/-- Whether one of the ranges, ends included, holds the code point. -/
def inRanges (ranges : List (Nat × Nat)) (n : Nat) : Bool :=
  ranges.any fun r => r.1 ≤ n && n ≤ r.2

/-- White space of Unicode, with the separators of the C0 controls. -/
def isBlank (c : Char) : Bool :=
  ('\t' ≤ c && c ≤ '\r') || ('\x1c' ≤ c && c ≤ ' ') || c = '\u0085' || c = '\u00a0' || c = '\u1680'
    || ('\u2000' ≤ c && c ≤ '\u200a') || c = '\u2028' || c = '\u2029' || c = '\u202f'
    || c = '\u205f' || c = '\u3000'

def trimLeft (cs : List Char) : List Char := cs.dropWhile isBlank

/-- Drops from both ends all characters that `p` holds of. -/
def trimBoth (p : Char → Bool) (cs : List Char) : List Char :=
  ((cs.dropWhile p).reverse.dropWhile p).reverse

def trim (cs : List Char) : List Char := trimBoth isBlank cs

/-- Characters that end a line. -/
def isLineBreak (c : Char) : Bool :=
  ('\n' ≤ c && c ≤ '\r') || ('\x1c' ≤ c && c ≤ '\x1e') || c = '\u0085' || c = '\u2028'
    || c = '\u2029'

/-- The lines of a text, the first of which starts with `line` in reverse. -/
def linesFrom (line : List Char) : List Char → List (List Char)
  | [] => if line.isEmpty then [] else [line.reverse]
  | '\r' :: '\n' :: r => line.reverse :: linesFrom [] r
  | c :: r => if isLineBreak c then line.reverse :: linesFrom [] r else linesFrom (c :: line) r

/-- The lines of a text without their ends; a carriage return with a line feed is one end. -/
def lines (cs : List Char) : List (List Char) := linesFrom [] cs

end ConventionLint.Text
