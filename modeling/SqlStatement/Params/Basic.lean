import SqlStatement.Entries
import SqlStatement.Params.Key
import SqlStatement.Params.Slot

/-!
# Parameters of a statement

`Params` holds the bindings of a statement's parameters in the order in which their keys were first
bound. Binding a key again changes its binding and not its place.
-/

namespace SqlStatement

@[ext] structure Params where
  entries : List (ParamKey × Binding) := []
  /-- each key is bound once -/
  nodup : (Entries.keys entries).Nodup := by exact List.nodup_nil
  deriving DecidableEq, Repr

instance : Inhabited Params := ⟨{}⟩

namespace Params

def empty : Params := {}

def bind (ps : Params) (key : ParamKey) (binding : Binding) : Params :=
  ⟨Entries.insert ps.entries (key, binding), Entries.nodup_keys_insert ps.nodup _⟩

def set (ps : Params) (key : ParamKey) (v : Value) : Params := ps.bind key (.value v)

def merge (ps qs : Params) : Params :=
  ⟨Entries.merge ps.entries qs.entries, Entries.nodup_keys_merge ps.nodup _⟩

def ofList (entries : List (ParamKey × Binding)) : Params :=
  ⟨Entries.ofList entries, Entries.nodup_keys_ofList entries⟩

def get? (ps : Params) (key : ParamKey) : Option Binding := (Entries.find? key ps.entries).map (·.2)

def contains (ps : Params) (key : ParamKey) : Bool := Entries.contains key ps.entries

def keys (ps : Params) : List ParamKey := ps.entries.map (·.1)

def size (ps : Params) : Nat := ps.entries.length

def isEmpty (ps : Params) : Bool := ps.entries.isEmpty

def value? (ps : Params) (slots : Slots) (key : ParamKey) : Option Value :=
  (ps.get? key).map (·.current slots)

/-- Whether both have the same keys in the same order, with values that agree now. -/
def agree (slots : Slots) (ps qs : Params) : Bool :=
  ps.keys = qs.keys &&
    (ps.entries.zip qs.entries).all fun (a, b) => (a.2.current slots).agrees (b.2.current slots)

end Params

end SqlStatement
