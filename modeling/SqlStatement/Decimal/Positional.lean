import SqlStatement.Decimal.Shortest

/-!
# Doubles in positional notation

`write` gives the shortest decimal that reads back, never with an exponent, without a point if it is
an integer, and with the sign of a negative zero. The other doubles are `NaN`, `inf` and `-inf`.
-/

namespace SqlStatement.Decimal

def Expansion.positional (d : Expansion) : List Char :=
  let ds := (toString d.digits).toList
  let places := (-d.exponent).toNat
  if 0 ≤ d.exponent then ds ++ List.replicate d.exponent.toNat '0'
  else if places < ds.length then
    ds.take (ds.length - places) ++ '.' :: ds.drop (ds.length - places)
  else '0' :: '.' :: (List.replicate (places - ds.length) '0' ++ ds)

def Magnitude.write (m : Magnitude) : List Char :=
  if m.mantissa = 0 then ['0'] else m.shortest.normalize.positional

def write (x : Float) : String :=
  if x.isNaN then "NaN"
  else
    let digits := if isFinite x then (magnitude x).write else ['i', 'n', 'f']
    String.ofList (if isNegative x then '-' :: digits else digits)

end SqlStatement.Decimal
