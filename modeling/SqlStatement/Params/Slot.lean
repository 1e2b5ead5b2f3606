import SqlStatement.Value.Basic

/-!
# Slots

A slot is a cell whose value is read at the moment of use. Parameters refer to slots by number, and
`Slots` holds their current values.
-/

namespace SqlStatement

abbrev SlotId := Nat

structure Slots where
  values : List Value := []
  deriving DecidableEq, Repr, Inhabited

namespace Slots

/-- The value of a slot; one that was never made holds null. -/
def read (slots : Slots) (id : SlotId) : Value := slots.values.getD id .null

def write (slots : Slots) (id : SlotId) (v : Value) : Slots := ⟨slots.values.set id v⟩

def create (slots : Slots) (v : Value) : SlotId × Slots :=
  (slots.values.length, ⟨slots.values ++ [v]⟩)

end Slots

inductive Binding where
  | value (v : Value)
  | slot (id : SlotId)
  | integerSlot (id : SlotId)
  deriving DecidableEq, Repr, Inhabited

namespace Binding

def current (slots : Slots) : Binding → Value
  | value v => v
  | slot id => slots.read id
  | integerSlot id => (slots.read id).coerceInteger

/-- Whether the value can change without a new binding. -/
def isSlot : Binding → Bool
  | value _ => false
  | _ => true

end Binding

end SqlStatement
