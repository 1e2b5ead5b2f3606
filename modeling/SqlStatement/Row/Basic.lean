import SqlStatement.Error
import SqlStatement.Value.Basic

/-!
# Result rows

A row has columns with names and cells with values, matched by position. Of several columns with one
name the last one is meant.
-/

namespace SqlStatement

structure Row where
  columns : List String
  values : List Value
  deriving DecidableEq, Repr, Inhabited

def lastIndex? (name : String) : List String → Option Nat
  | [] => none
  | n :: ns =>
    match lastIndex? name ns with
    | some i => some (i + 1)
    | none => if n = name then some 0 else none

namespace Row

def ofPairs (pairs : List (String × Value)) : Row := ⟨pairs.map (·.1), pairs.map (·.2)⟩

def get? (r : Row) (column : String) : Option Value :=
  (lastIndex? column r.columns).bind fun i => r.values[i]?

def require (r : Row) (column : String) : Except Error Value :=
  match r.get? column with
  | some v => .ok v
  | none => .error (.columnNotFound column)

def pairs (r : Row) : List (String × Value) := r.columns.zip r.values

def cells (r : Row) : List String → Except Error (List Value)
  | [] => .ok []
  | c :: cs =>
    match r.require c with
    | .error e => .error e
    | .ok v => (r.cells cs).map (v :: ·)

def project (r : Row) (columns : List String) : Except Error Row :=
  (r.cells columns).map (Row.mk columns)

/-- The members of the object that the row is in JSON. -/
def members (r : Row) : List (String × Json) :=
  r.pairs.foldl (fun ms (c, v) => Json.setMember c v.toJson ms) []

def toJson (r : Row) : Json := .object r.members

end Row

/-! ## Records -/

class RecordOf (α : Type) where
  ofMembers? : List (String × Json) → Option α

instance : RecordOf Json where
  ofMembers? ms := some (.object ms)

/-- A row becomes a record by way of its object. -/
def Row.record (α : Type) [RecordOf α] (r : Row) : Except Error α :=
  match RecordOf.ofMembers? r.members with
  | some x => .ok x
  | none => .error .serialization

end SqlStatement
