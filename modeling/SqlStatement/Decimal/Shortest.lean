import SqlStatement.Decimal.Binary

/-!
# The shortest decimal that reads back

The real numbers that round to a double form an interval around it. Of the decimals in this interval
`shortest` selects one with the fewest digits, and of these the one nearest to the double; if two
are equally near, the larger. All comparisons are exact, between natural numbers.
-/

namespace SqlStatement.Decimal

structure Expansion where
  digits : Nat
  exponent : Int
  deriving DecidableEq, Repr

namespace Magnitude

/-- The number in units of `10 ^ e`, as the quotient of two naturals: the first is `mantissa` times
the unit given. -/
def unitOn (m : Magnitude) (e : Int) : Nat × Nat :=
  (Nat.pow 2 m.exponent.toNat * Nat.pow 10 (-e).toNat,
    Nat.pow 2 (-m.exponent).toNat * Nat.pow 10 e.toNat)

/-- Whether `point * 10 ^ e` rounds to the number, where `unit / den` is one mantissa step in units
of `10 ^ e`. The ends of the interval lie half a step away (a quarter below where the doubles are
denser) and belong to it when the mantissa is even. -/
def readsBack (m : Magnitude) (unit den point : Nat) : Bool :=
  let lower := (4 * m.mantissa - if m.narrowBelow then 1 else 2) * unit
  let upper := (4 * m.mantissa + 2) * unit
  let place := 4 * point * den
  if m.mantissa % 2 = 0 then lower ≤ place && place ≤ upper else lower < place && place < upper

def onGrid? (m : Magnitude) (e : Int) : Option Expansion :=
  let (unit, den) := m.unitOn e
  let below := m.mantissa * unit / den
  match m.readsBack unit den below, m.readsBack unit den (below + 1) with
  | true, true =>
    if 2 * (m.mantissa * unit) < (2 * below + 1) * den then some ⟨below, e⟩ else some ⟨below + 1, e⟩
  | true, false => some ⟨below, e⟩
  | false, true => some ⟨below + 1, e⟩
  | false, false => none

def isBelow (m : Magnitude) (k : Int) : Bool :=
  let (unit, den) := m.unitOn k
  m.mantissa * unit < den

def climb (m : Magnitude) : Nat → Int → Int
  | 0, k => k
  | tries + 1, k => if m.isBelow k then k else climb m tries (k + 1)

/-- The least `k` with the number below `10 ^ k`. The binary logarithm times `0.30103`, the decimal
logarithm of two, gives it but for a few steps. -/
def scale (m : Magnitude) : Int :=
  m.climb 6 ((((m.mantissa.log2 : Int) + m.exponent) * 30103).fdiv 100000 - 1)

def exact (m : Magnitude) : Expansion :=
  if 0 ≤ m.exponent then ⟨m.mantissa * Nat.pow 2 m.exponent.toNat, 0⟩
  else ⟨m.mantissa * Nat.pow 5 (-m.exponent).toNat, m.exponent⟩

/-- The decimal with the fewest digits that reads back as the number, of these the nearest. -/
def shortest (m : Magnitude) : Expansion :=
  let k := m.scale
  ((List.range 17).findSome? fun (i : Nat) => m.onGrid? (k - (i + 1))).getD m.exact

end Magnitude

def Expansion.normalize (d : Expansion) : Expansion :=
  if d.digits ≠ 0 ∧ d.digits % 10 = 0 then normalize ⟨d.digits / 10, d.exponent + 1⟩ else d
termination_by d.digits
decreasing_by omega

end SqlStatement.Decimal
