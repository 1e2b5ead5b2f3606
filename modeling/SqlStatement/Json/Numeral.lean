import SqlStatement.Json.Basic

/-!
# Numbers in JSON text

A number is an integer if it is written as one and 64 bits hold it, and a double otherwise. The
double is found in double arithmetic: as many digits as fit 64 bits are read as one integer, and
that integer is multiplied or divided by powers of ten. So it can differ from the nearest double in
its last bit.
-/

namespace SqlStatement.Json

structure Numeral where
  negative : Bool
  whole : List Char
  /-- the digits after the point, none without a point -/
  fraction : Option (List Char)
  /-- whether the exponent is negative, and its digits -/
  exponent : Option (Bool × List Char)
  deriving DecidableEq, Repr

inductive Number where
  | int (n : Int)
  | float (x : Float)
  deriving DecidableEq, Repr

/-- Appends digits while the number stays within `bound`; gives it with the digits left over. -/
def appendDigits (bound : Nat) : Nat → List Char → Nat × List Char
  | n, [] => (n, [])
  | n, d :: ds =>
    let next := 10 * n + (d.toNat - '0'.toNat)
    if next ≤ bound then appendDigits bound next ds else (n, d :: ds)

def powerOfTen (n : Nat) : Float := Float.ofScientific 1 false n

def maxPower : Nat := 308

/-- `x * 10 ^ e` by one multiplication or by divisions; none if it overflows. -/
def scaleTen? (x : Float) (e : Int) : Option Float :=
  if e.natAbs ≤ maxPower then
    if 0 ≤ e then
      let y := x * powerOfTen e.natAbs
      if y.isInf then none else some y
    else some (x / powerOfTen e.natAbs)
  else if x == 0 then some x
  else if 0 ≤ e then none
  else scaleTen? (x / powerOfTen maxPower) (e + maxPower)
termination_by e.natAbs
decreasing_by simp only [maxPower] at *; omega

namespace Numeral

def maxSignificand : Nat := 0xFFFFFFFFFFFFFFFF

def maxExponent : Nat := 0x7FFFFFFF

/-- The double `± significand * 10 ^ (shift + exponent)`. -/
def double? (n : Numeral) (significand : Nat) (shift : Int) : Option Float :=
  let magnitude :=
    match n.exponent with
    | none => scaleTen? (Float.ofNat significand) shift
    | some (negative, ds) =>
      match appendDigits maxExponent 0 ds with
      | (e, []) => scaleTen? (Float.ofNat significand) (if negative then shift - e else shift + e)
      | (_, _ :: _) => if significand ≠ 0 ∧ negative = false then none else some 0
  magnitude.map fun x => if n.negative then -x else x

def integer (n : Numeral) (significand : Nat) : Number :=
  if n.negative then
    if significand = 0 ∨ 0x8000000000000000 < significand then .float (-(Float.ofNat significand))
    else .int (-(significand : Int))
  else .int significand

/-- The value of the number; none if it is too large for a double. -/
def number? (n : Numeral) : Option Number :=
  let (significand, left) := appendDigits maxSignificand 0 n.whole
  match n.fraction, n.exponent, left with
  | none, none, [] => some (n.integer significand)
  | none, _, left => (n.double? significand left.length).map .float
  | some ds, _, left =>
    let (significand, rest) := appendDigits maxSignificand significand ds
    (n.double? significand (left.length - (ds.length - rest.length : Nat))).map .float

end Numeral

end SqlStatement.Json
