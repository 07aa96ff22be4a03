import ConventionLint.Data.Decimal

/-! Whole and binary numbers. -/
namespace ConventionLint.Data

inductive Number where
  | int (n : Int)
  | float (x : Float)

namespace Number

def toFloat : Number → Float
  | int n => Float.ofInt n
  | float x => x

/-- Whole numbers stay whole. -/
def sub : Number → Number → Number
  | int a, int b => int (a - b)
  | a, b => float (a.toFloat - b.toFloat)

def mul : Number → Number → Number
  | int a, int b => int (a * b)
  | a, b => float (a.toFloat * b.toFloat)

def isZero : Number → Bool
  | int n => n = 0
  | float x => x == 0.0

/-- Whether a number is equal to a whole one. -/
def isInt (k : Int) : Number → Bool
  | int n => n = k
  | float x => x == Float.ofInt k

def same : Number → Number → Bool
  | int a, int b => a = b
  | a, b => a.toFloat == b.toFloat

def text : Number → String
  | int n => toString n
  | float x => shortestText x

/-- The number `digits * 10 ^ power`, rounded. -/
def ofDecimal (negative : Bool) (digits : Nat) (power : Int) : Number :=
  let x := if 0 ≤ power then Float.ofScientific digits false power.toNat
    else Float.ofScientific digits true (-power).toNat
  float (if negative then -x else x)

end Number

end ConventionLint.Data
