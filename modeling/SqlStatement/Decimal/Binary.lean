import SqlStatement.Integer

/-!
# Binary floating-point numbers as exact numbers

A finite double is `± mantissa * 2 ^ exponent` with natural mantissa. Everything that is asked of a
double here is computed exactly on these two integers.
-/

namespace SqlStatement.Decimal

/-- The number `mantissa * 2 ^ exponent`. -/
structure Magnitude where
  mantissa : Nat
  exponent : Int
  /-- the distance to the next smaller double is half of that to the next larger one -/
  narrowBelow : Bool
  deriving DecidableEq, Repr

def Magnitude.ofBits (bits : UInt64) : Magnitude :=
  let biased := (bits >>> 52 &&& 0x7FF).toNat
  let fraction := (bits &&& 0xFFFFFFFFFFFFF).toNat
  if biased = 0 then ⟨fraction, -1074, false⟩
  else ⟨0x10000000000000 + fraction, (biased : Int) - 1075, fraction = 0 && 1 < biased⟩

def isNegative (x : Float) : Bool := x.toBits >>> 63 == 1

def isFinite (x : Float) : Bool := x.toBits >>> 52 &&& 0x7FF != 0x7FF

def magnitude (x : Float) : Magnitude := Magnitude.ofBits x.toBits

def Magnitude.floor (m : Magnitude) : Nat :=
  m.mantissa * Nat.pow 2 m.exponent.toNat / Nat.pow 2 (-m.exponent).toNat

def Magnitude.isWhole (m : Magnitude) : Bool := m.mantissa % Nat.pow 2 (-m.exponent).toNat == 0

def signed (x : Float) (n : Nat) : Int := if isNegative x then -(n : Int) else n

/-- The double rounded towards zero and clamped to 64 bits; zero for a NaN. -/
def truncate (x : Float) : Int64 :=
  if isFinite x then Integer.clamp (signed x (magnitude x).floor)
  else if x.isNaN then 0
  else if isNegative x then Int64.minValue
  else Int64.maxValue

/-- The integer that a double without fractional part equals, clamped to 64 bits. -/
def whole? (x : Float) : Option Int64 :=
  if isFinite x && (magnitude x).isWhole then some (truncate x) else none

end SqlStatement.Decimal
