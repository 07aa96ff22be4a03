import ConventionLint.Source.Character

/-! How far the lexeme at the front of a text reaches. Every function gives a number of characters,
and 0 where no such lexeme starts. -/
namespace ConventionLint.Source

/-- The part of a block comment after its opening, up to and with its end. -/
def blockLength : List Char → Option Nat
  | '*' :: '/' :: _ => some 2
  | _ :: r => (blockLength r).map (· + 1)
  | [] => none

def commentLength : List Char → Nat
  | '/' :: '/' :: r => 2 + (r.takeWhile fun c => !endsLine c).length
  | '/' :: '*' :: r => ((blockLength r).map (· + 2)).getD 0
  | _ => 0

/-- A code point written `\uXXXX` or with braces. -/
def codePointLength : List Char → Nat
  | '\\' :: 'u' :: '{' :: r =>
    let n := (r.takeWhile isHexDigit).length
    if n ≠ 0 ∧ (r.drop n).head? = some '}' then n + 4 else 0
  | '\\' :: 'u' :: a :: b :: c :: d :: _ => if [a, b, c, d].all isHexDigit then 6 else 0
  | _ => 0

/-- The rest of a name; the first argument counts characters of an escape still to pass. -/
def nameTail : Nat → List Char → Nat
  | _, [] => 0
  | n + 1, _ :: r => 1 + nameTail n r
  | 0, c :: r =>
    if isNamePart c then 1 + nameTail 0 r
    else match codePointLength (c :: r) with
      | 0 => 0
      | n + 1 => 1 + nameTail n r

def nameLength : List Char → Nat
  | [] => 0
  | c :: r => if c.isDigit then 0 else nameTail 0 (c :: r)

/-- An escape inside a string or template. -/
def escapeLength : List Char → Nat
  | '\\' :: 'x' :: a :: b :: _ => if isHexDigit a && isHexDigit b then 4 else 0
  | '\\' :: 'x' :: _ => 0
  | '\\' :: 'u' :: r => codePointLength ('\\' :: 'u' :: r)
  | '\\' :: c :: d :: r =>
    if isOctalDigit c then 1 + ((c :: d :: r).take 3 |>.takeWhile isOctalDigit).length
    else if (c = '\r' || c = '?') && (d = '\n' || d = '\u2028' || d = '\u2029') then 3
    else 2
  | '\\' :: _ :: [] => 2
  | _ => 0

/-- Digits of one base, with single underscores between them, after a first digit. -/
def digitsTail (digit : Char → Bool) : List Char → Nat
  | [] => 0
  | c :: r => if digit c || (c = '_' && r.head?.any digit) then 1 + digitsTail digit r else 0

def digitsLength (digit : Char → Bool) (cs : List Char) : Nat :=
  if cs.head?.any digit then digitsTail digit cs else 0

def exponentLength : List Char → Nat
  | e :: r =>
    if e = 'e' || e = 'E' then
      let sign := match r with
        | '+' :: _ | '-' :: _ => 1
        | _ => 0
      match digitsLength Char.isDigit (r.drop sign) with
      | 0 => 0
      | n => 1 + sign + n
    else 0
  | [] => 0

/-- Whole numbers that a fraction or an exponent may follow: no more than one leading zero. -/
def wholeLength : List Char → Nat
  | '0' :: c :: r => if '1' ≤ c && c ≤ '9' then 1 + digitsLength Char.isDigit (c :: r) else 1
  | '0' :: [] => 1
  | cs => digitsLength Char.isDigit cs

/-- Numbers in base ten with a fraction or an exponent. -/
def fractionalLength (cs : List Char) : Nat :=
  match wholeLength cs with
  | 0 => match cs with
    | '.' :: r => match digitsLength Char.isDigit r with
      | 0 => 0
      | n => 1 + n + exponentLength (r.drop n)
    | _ => 0
  | w => match cs.drop w with
    | '.' :: r =>
      let n := digitsLength Char.isDigit r
      w + 1 + n + exponentLength (r.drop n)
    | r => match exponentLength r with
      | 0 => 0
      | n => w + n

/-- Whole numbers of any base, with the mark of a big integer. -/
def integralLength (cs : List Char) : Nat :=
  let base (digit : Char → Bool) (r : List Char) : Nat :=
    match digitsLength digit r with
    | 0 => 0
    | n => 2 + n
  let based := match cs with
    | '0' :: b :: r =>
      if b = 'x' || b = 'X' then base isHexDigit r
      else if b = 'o' || b = 'O' then base isOctalDigit r
      else if b = 'b' || b = 'B' then base isBinaryDigit r
      else 0
    | _ => 0
  let n := max based (digitsLength Char.isDigit cs)
  if n ≠ 0 ∧ (cs.drop n).head? = some 'n' then n + 1 else n

def numberLength (cs : List Char) : Nat :=
  max (fractionalLength cs) (integralLength cs)

/-- A bracketed class of a regular expression after its opening bracket. -/
def classLength : List Char → Option Nat
  | ']' :: _ => some 1
  | '\\' :: c :: r => if c = '\n' then none else (classLength r).map (· + 2)
  | c :: r => if c = '\n' || c = '\\' then none else (classLength r).map (· + 1)
  | [] => none

/-- The pattern of a regular expression, up to its closing slash. The first argument counts
characters that are already known to belong to it. -/
def regexTail : Nat → List Char → Option Nat
  | n + 1, _ :: r => (regexTail n r).map (· + 1)
  | 0, '/' :: _ => some 0
  | 0, '\\' :: c :: r => if c = '\n' then none else (regexTail 1 (c :: r)).map (· + 1)
  | 0, '[' :: r => (classLength r).bind fun n => (regexTail n r).map (· + 1)
  | 0, c :: r => if c = '\n' || c = '\\' then none else (regexTail 0 r).map (· + 1)
  | _, [] => none

/-- The pattern between the slashes of a regular expression. -/
def regexLength (cs : List Char) : Nat :=
  match cs with
  | '*' :: _ | '/' :: _ => 0
  | _ => (regexTail 0 cs).getD 0

/-- Text of a template up to the next substitution, escape or end. -/
def templateLength : List Char → Nat
  | [] => 0
  | '`' :: _ => 0
  | '\\' :: _ => 0
  | '$' :: '{' :: _ => 0
  | _ :: r => 1 + templateLength r

end ConventionLint.Source
