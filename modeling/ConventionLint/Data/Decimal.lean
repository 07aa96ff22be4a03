/-! Decimal texts of binary numbers, exactly. -/
namespace ConventionLint.Data

/-- The number `mantissa * 2 ^ exponent`. -/
structure Binary where
  mantissa : Nat
  exponent : Int

/-- What the bits of a number of 64 bits say, apart from the sign. -/
inductive Magnitude where
  | finite (b : Binary)
  | infinite
  | notNumber

def exponentField (bits : Nat) : Nat := bits / Nat.pow 2 52 % Nat.pow 2 11

def fractionField (bits : Nat) : Nat := bits % Nat.pow 2 52

def isNegative (x : Float) : Bool := x.toBits.toNat / Nat.pow 2 63 = 1

def magnitude (x : Float) : Magnitude :=
  let bits := x.toBits.toNat
  let e := exponentField bits
  let f := fractionField bits
  if e = 2047 then if f = 0 then .infinite else .notNumber
  else if e = 0 then .finite ⟨f, -1074⟩
  else .finite ⟨f + Nat.pow 2 52, (e : Int) - 1075⟩

/-- The number `numerator / denominator`. -/
structure Ratio where
  numerator : Nat
  denominator : Nat

namespace Ratio

/-- The ratio times a power of a base, which may be negative. -/
def scale (r : Ratio) (base : Nat) (power : Int) : Ratio :=
  if 0 ≤ power then ⟨r.numerator * Nat.pow base power.toNat, r.denominator⟩
  else ⟨r.numerator, r.denominator * Nat.pow base (-power).toNat⟩

def le (a b : Ratio) : Bool := a.numerator * b.denominator ≤ b.numerator * a.denominator

def lt (a b : Ratio) : Bool := a.numerator * b.denominator < b.numerator * a.denominator

def floor (r : Ratio) : Nat := r.numerator / r.denominator

/-- The nearest whole number; a half goes to the even one. -/
def round (r : Ratio) : Nat :=
  let twice := 2 * (r.numerator % r.denominator)
  let down := r.floor
  if twice < r.denominator then down
  else if twice > r.denominator then down + 1
  else if down % 2 = 0 then down else down + 1

end Ratio

def Binary.ratio (b : Binary) : Ratio := Ratio.scale ⟨b.mantissa, 1⟩ 2 b.exponent

/-- The number `digits * 10 ^ exponent`. -/
structure Decimal where
  digits : Nat
  exponent : Int
deriving DecidableEq

/-- Whether a decimal is nearer to a number of 53 bits than to its neighbours. A point halfway to a
neighbour counts if the mantissa is even. -/
def Binary.isNearestTo (b : Binary) (d : Decimal) : Bool :=
  let smallestOfItsExponent := b.mantissa = Nat.pow 2 52 ∧ b.exponent > -1074
  let low := Ratio.scale ⟨4 * b.mantissa - (if smallestOfItsExponent then 1 else 2), 4⟩ 2 b.exponent
  let high := Ratio.scale ⟨4 * b.mantissa + 2, 4⟩ 2 b.exponent
  let point := Ratio.scale ⟨d.digits, 1⟩ 10 d.exponent
  if b.mantissa % 2 = 0 then low.le point && point.le high else low.lt point && point.lt high

/-- The power of ten that the first digit of a number greater than 0 stands for. -/
def Ratio.leadingPower (r : Ratio) : Int :=
  let guess : Int := (Nat.toDigits 10 r.numerator).length - (Nat.toDigits 10 r.denominator).length
  if (Ratio.scale ⟨1, 1⟩ 10 guess).le r then guess else guess - 1

/-- The decimal of `count` digits that is nearest to a number among those that stand for it. -/
def Binary.decimalOf? (b : Binary) (count : Nat) : Option Decimal :=
  let power := b.ratio.leadingPower - (count : Int) + 1
  let scaled := b.ratio.scale 10 (-power)
  let nearest := scaled.round
  let other := if nearest = scaled.floor then nearest + 1 else scaled.floor
  [nearest, other].findSome? fun n =>
    if b.isNearestTo ⟨n, power⟩ then some ⟨n, power⟩ else none

/-- The same decimal without zeros at its end. -/
def Decimal.trim : Nat → Decimal → Decimal
  | 0, d => d
  | fuel + 1, d =>
    if d.digits ≠ 0 ∧ d.digits % 10 = 0 then trim fuel ⟨d.digits / 10, d.exponent + 1⟩ else d

/-- The shortest decimal that stands for a number. -/
def Binary.shortest (b : Binary) : Decimal :=
  if b.mantissa = 0 then ⟨0, 0⟩
  else (((List.range 17).findSome? fun n => b.decimalOf? (n + 1)).getD ⟨0, 0⟩).trim 20

def zeros (n : Nat) : String := String.ofList (List.replicate n '0')

def sign (negative : Bool) : String := if negative then "-" else ""

/-- A power of ten with its sign and at least two digits. -/
def powerText (e : Int) : String :=
  let digits := toString e.natAbs
  (if e < 0 then "e-" else "e+") ++ (if digits.length < 2 then "0" else "") ++ digits

/-- From 0.0001 on and below 10^16 the digits stand in their places, else before a power. -/
def Decimal.text (d : Decimal) : String :=
  let digits := toString d.digits
  let point : Int := digits.length + d.exponent
  if d.digits = 0 then "0.0"
  else if point ≤ -4 ∨ 16 < point then
    let tail := (digits.drop 1).toString
    (digits.take 1).toString ++ (if tail.isEmpty then "" else "." ++ tail) ++ powerText (point - 1)
  else if point ≤ 0 then "0." ++ zeros (-point).toNat ++ digits
  else if digits.length ≤ point.toNat then digits ++ zeros (point.toNat - digits.length) ++ ".0"
  else (digits.take point.toNat).toString ++ "." ++ (digits.drop point.toNat).toString

/-- The shortest text that stands for a number. -/
def shortestText (x : Float) : String :=
  match magnitude x with
  | .finite b => sign (isNegative x) ++ b.shortest.text
  | .infinite => sign (isNegative x) ++ "inf"
  | .notNumber => "nan"

/-- A number with one place behind the point. -/
def tenthsText (x : Float) : String :=
  match magnitude x with
  | .finite b =>
    let tenths := (b.ratio.scale 10 1).round
    sign (isNegative x) ++ toString (tenths / 10) ++ "." ++ toString (tenths % 10)
  | .infinite => sign (isNegative x) ++ "inf"
  | .notNumber => "nan"

end ConventionLint.Data
