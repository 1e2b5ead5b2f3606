import SqlStatement.Value.Basic

/-!
# Keys of a fetched map

Integers, and texts that are exactly how an integer is written, become integer keys; all other texts
stay texts. So `"7"` and `7` are one key, `"07"` is another.
-/

namespace SqlStatement

inductive MapKey where
  | int (n : Int64)
  | text (s : String)
  deriving DecidableEq, Repr, Inhabited

namespace MapKey

def ofText (s : String) : MapKey :=
  match Integer.canonical? s with
  | some n => int n
  | none => text s

/-- The key of a cell. A null is the empty text, a double is cut off to an integer. -/
def ofValue : Value → MapKey
  | .null => text ""
  | .bool b => int (if b then 1 else 0)
  | .int n => int n
  | .float x => int (Decimal.truncate x)
  | .text s => ofText s

def display : MapKey → String
  | int n => Integer.write n
  | text s => s

/-- The order of keys: integers by size, then texts by code points. -/
def le : MapKey → MapKey → Bool
  | int m, int n => m ≤ n
  | int _, text _ => true
  | text _, int _ => false
  | text s, text t => s ≤ t

def ascending (keys : List MapKey) : List MapKey := (keys.mergeSort le).eraseReps

end MapKey

end SqlStatement
