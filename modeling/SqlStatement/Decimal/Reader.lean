import SqlStatement.Decimal.Binary

/-!
# Reading doubles from text

`read?` accepts a number in decimal notation and nothing around it: an optional sign, then `inf`,
`infinity` or `nan` in any letter case, or digits with an optional point and exponent. The value is
the double nearest to the number, of two the one with even mantissa.
-/

namespace SqlStatement.Decimal

/-- The number `digits * 10 ^ exponent`, as it was written. -/
structure Unsigned where
  digits : Nat
  exponent : Int

def exponent? : List Char → Option Int
  | '-' :: cs => (Integer.ofDigits? cs).map fun n => -(n : Int)
  | '+' :: cs => (Integer.ofDigits? cs).map Int.ofNat
  | cs => (Integer.ofDigits? cs).map Int.ofNat

def exponentPart? : List Char → Option Int
  | [] => some 0
  | c :: cs => if c = 'e' ∨ c = 'E' then exponent? cs else none

/-- Digits, at most one point, at least one digit, an optional exponent. -/
def unsigned? (cs : List Char) : Option Unsigned :=
  let whole := cs.takeWhile Char.isDigit
  let rest := cs.dropWhile Char.isDigit
  let (fraction, rest) :=
    match rest with
    | '.' :: rest => (rest.takeWhile Char.isDigit, rest.dropWhile Char.isDigit)
    | rest => ([], rest)
  do
    let digits ← Integer.ofDigits? (whole ++ fraction)
    let e ← exponentPart? rest
    some ⟨digits, e - fraction.length⟩

/-- The double nearest to the number. Numbers of more than 400 digits before the point overflow, and
those whose first digit comes after 400 places vanish. -/
def nearest (u : Unsigned) : Float :=
  let size : Int := (toString u.digits).length + u.exponent
  if u.digits = 0 ∨ size < -400 then 0
  else if 400 < size then Float.ofScientific 1 false 400
  else Float.ofScientific u.digits (u.exponent < 0) u.exponent.natAbs

def magnitude? (cs : List Char) : Option Float :=
  match unsigned? cs with
  | some u => some (nearest u)
  | none =>
    let word := cs.map Char.toLower
    if word = "inf".toList ∨ word = "infinity".toList then some (Float.ofScientific 1 false 400)
    else if word = "nan".toList then some (0 / 0)
    else none

def read? (s : String) : Option Float :=
  match s.toList with
  | '-' :: cs => (magnitude? cs).map (-·)
  | '+' :: cs => magnitude? cs
  | cs => magnitude? cs

end SqlStatement.Decimal
