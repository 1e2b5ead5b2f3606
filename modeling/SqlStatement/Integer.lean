import SqlStatement.Text.Basic

/-!
# Integers of 64 bits and their texts

`plain?`, `signed?` and `canonical?` read an integer from a text, in this order with an optional
minus sign, with a sign of either kind, and only if the text is exactly what `write` gives.
-/

namespace SqlStatement.Integer

def ofDigits? (cs : List Char) : Option Nat :=
  if !cs.isEmpty && cs.all Char.isDigit then some (Nat.ofDigitChars 10 cs 0) else none

def inRange? (n : Int) : Option Int64 :=
  if Int64.minValue.toInt ≤ n ∧ n ≤ Int64.maxValue.toInt then some (Int64.ofInt n) else none

def clamp (n : Int) : Int64 :=
  if n < Int64.minValue.toInt then Int64.minValue
  else if Int64.maxValue.toInt < n then Int64.maxValue
  else Int64.ofInt n

def plainIn? : List Char → Option Int64
  | '-' :: cs => (ofDigits? cs).bind fun n => inRange? (-(n : Int))
  | cs => (ofDigits? cs).bind fun n => inRange? n

/-- The integer that a text of digits with an optional minus sign stands for. -/
def plain? (s : String) : Option Int64 := plainIn? s.toList

def signed? (s : String) : Option Int64 :=
  match s.toList with
  | '+' :: cs => (ofDigits? cs).bind fun n => inRange? n
  | cs => plainIn? cs

def leadingZero : List Char → Bool
  | '0' :: _ => true
  | _ => false

/-- Whether a text of digits is free of needless zeros and of a signed zero. -/
def canonicalShape : List Char → Bool
  | '-' :: cs => !leadingZero cs
  | cs => cs == ['0'] || !leadingZero cs

/-- The integer whose written form the text is. -/
def canonical? (s : String) : Option Int64 :=
  if canonicalShape s.toList then plain? s else none

def write (n : Int64) : String := toString n.toInt

end SqlStatement.Integer
