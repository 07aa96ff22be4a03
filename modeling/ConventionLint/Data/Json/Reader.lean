import ConventionLint.Data.Value
import ConventionLint.Text.Front

/-! Values from JSON texts. -/
namespace ConventionLint.Data.Json

open Text

def isSpace (c : Char) : Bool := c = ' ' || c = '\n' || c = '\r' || c = '\t'

def skipSpaces (cs : List Char) : List Char := cs.dropWhile isSpace

def hexValue? (c : Char) : Option Nat :=
  if c.isDigit then some (c.toNat - '0'.toNat)
  else if 'a' ≤ c && c ≤ 'f' then some (c.toNat - 'a'.toNat + 10)
  else if 'A' ≤ c && c ≤ 'F' then some (c.toNat - 'A'.toNat + 10)
  else none

/-- The unit of 16 bits that four digits stand for. -/
def unit? (a b c d : Char) : Option Nat := do
  return (((← hexValue? a) * 16 + (← hexValue? b)) * 16 + (← hexValue? c)) * 16 + (← hexValue? d)

/-- The character that stands behind a backslash for another one. -/
def shortEscape? (c : Char) : Option Char :=
  [('"', '"'), ('\\', '\\'), ('/', '/'), ('n', '\n'), ('r', '\r'), ('t', '\t'), ('f', '\x0c'),
   ('b', '\x08')].lookup c

/-- The characters of a text up to its closing quote, and what follows. A unit that is half of a
pair needs its other half. -/
def readChars : List Char → Option (List Char × List Char)
  | '"' :: r => some ([], r)
  | '\\' :: 'u' :: a :: b :: c :: d :: r => do
    let n ← unit? a b c d
    if 0xd800 ≤ n && n < 0xdc00 then
      match r with
      | '\\' :: 'u' :: e :: f :: g :: h :: r =>
        let low ← unit? e f g h
        if 0xdc00 ≤ low && low < 0xe000 then
          let (s, r) ← readChars r
          return (Char.ofNat (0x10000 + (n - 0xd800) * 0x400 + (low - 0xdc00)) :: s, r)
        else none
      | _ => none
    else if 0xdc00 ≤ n && n < 0xe000 then none
    else
      let (s, r) ← readChars r
      return (Char.ofNat n :: s, r)
  | '\\' :: c :: r => do
    let c ← shortEscape? c
    let (s, r) ← readChars r
    return (c :: s, r)
  | c :: r =>
    if c < ' ' then none
    else do
      let (s, r) ← readChars r
      return (c :: s, r)
  | [] => none

def digitsValue (cs : List Char) : Nat := cs.foldl (fun n c => n * 10 + (c.toNat - '0'.toNat)) 0

/-- A non-empty run of digits. -/
def digits? (cs : List Char) : Option (List Char × List Char) :=
  match cs.takeWhile Char.isDigit with
  | [] => none
  | ds => some (ds, cs.dropWhile Char.isDigit)

/-- The digits of a number before its point: a zero stands alone. -/
def whole? : List Char → Option (List Char × List Char)
  | '0' :: r => some (['0'], r)
  | cs => digits? cs

def fraction? : List Char → Option (List Char × List Char)
  | '.' :: r => digits? r
  | _ => none

def power? : List Char → Option (Int × List Char)
  | c :: r =>
    if c = 'e' || c = 'E' then
      let (negative, r) := match r with
        | '-' :: r => (true, r)
        | '+' :: r => (false, r)
        | r => (false, r)
      (digits? r).map fun (ds, r) =>
        (if negative then -(digitsValue ds : Int) else digitsValue ds, r)
    else none
  | [] => none

/-- A number with a fraction or a power is a binary one. -/
def readNumber (cs : List Char) : Option (Number × List Char) := do
  let (negative, cs) := match cs with
    | '-' :: r => (true, r)
    | r => (false, r)
  let (ds, cs) ← whole? cs
  let n := digitsValue ds
  match fraction? cs, power? cs with
  | none, none => return (.int (if negative then -(n : Int) else n), cs)
  | none, some (p, r) => return (Number.ofDecimal negative n p, r)
  | some (fs, r), _ =>
    let (p, r) := (power? r).getD (0, r)
    return (Number.ofDecimal negative (digitsValue (ds ++ fs)) (p - fs.length), r)

/-- A number that is not finite, by its name. -/
def readName (cs : List Char) : Option (Number × List Char) :=
  ((after? "NaN".toList cs).map (.float (0.0 / 0.0), ·))
    <|> ((after? "Infinity".toList cs).map (.float (1.0 / 0.0), ·))
    <|> ((after? "-Infinity".toList cs).map (.float (-1.0 / 0.0), ·))

mutual

/-- The value at the front of a text, and what follows. Names of numbers are no JSON, and are read
with `names` only. The other argument bounds the depth and the number of values. -/
def read (names : Bool) : Nat → List Char → Option (Value × List Char)
  | 0, _ => none
  | fuel + 1, cs =>
    match skipSpaces cs with
    | '{' :: r =>
      match skipSpaces r with
      | '}' :: r => some (.map [], r)
      | r => (readEntries names fuel r).map fun (es, r) => (Value.ofEntries es, r)
    | '[' :: r =>
      match skipSpaces r with
      | ']' :: r => some (.list [], r)
      | r => (readItems names fuel r).map fun (vs, r) => (.list vs, r)
    | '"' :: r => (readChars r).map fun (s, r) => (.text (String.ofList s), r)
    | r =>
      ((after? "null".toList r).map (Value.null, ·))
        <|> ((after? "true".toList r).map (Value.bool true, ·))
        <|> ((after? "false".toList r).map (Value.bool false, ·))
        <|> ((readNumber r <|> (if names then readName r else none)).map
          fun (n, r) => (Value.number n, r))

def readItems (names : Bool) : Nat → List Char → Option (List Value × List Char)
  | 0, _ => none
  | fuel + 1, cs => do
    let (v, r) ← read names fuel cs
    match skipSpaces r with
    | ',' :: r =>
      let (vs, r) ← readItems names fuel r
      return (v :: vs, r)
    | ']' :: r => return ([v], r)
    | _ => none

def readEntries (names : Bool) : Nat → List Char → Option (List (Value × Value) × List Char)
  | 0, _ => none
  | fuel + 1, cs =>
    match skipSpaces cs with
    | '"' :: r => do
      let (k, r) ← readChars r
      match skipSpaces r with
      | ':' :: r =>
        let (v, r) ← read names fuel r
        let e := (Value.text (String.ofList k), v)
        match skipSpaces r with
        | ',' :: r =>
          let (es, r) ← readEntries names fuel r
          return (e :: es, r)
        | '}' :: r => return ([e], r)
        | _ => none
      | _ => none
    | _ => none

end

/-- The value of a whole text, with or without names of numbers in it. -/
def parseWith? (names : Bool) (s : String) : Option Value := do
  let (v, r) ← read names (s.length + 1) s.toList
  if (skipSpaces r).isEmpty then some v else none

/-- The value of a whole text. -/
def parse? (s : String) : Option Value := parseWith? true s

end ConventionLint.Data.Json
