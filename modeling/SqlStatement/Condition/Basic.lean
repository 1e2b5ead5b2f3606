import SqlStatement.Entries
import SqlStatement.Text.Blank
import SqlStatement.Value.Basic

/-!
# Conditions

A condition is a text of SQL or a list of terms: comparisons of a field, fragments of text and
brackets.
-/

namespace SqlStatement

inductive Operand where
  | scalar (v : Value)
  | list (vs : List Value)
  | range (low high : Value)
  deriving DecidableEq, Repr, Inhabited

/-- The operand as a list of values; a scalar is none. -/
def Operand.list? : Operand → Option (List Value)
  | scalar _ => none
  | list vs => some vs
  | range low high => some [low, high]

inductive Term where
  /-- a comparison; the key names field, operator and suffix -/
  | field (key : String) (operand : Operand)
  | raw (sql : String)
  | openGroup
  | closeGroup
  deriving DecidableEq, Repr, Inhabited

instance : HasKey Term String where
  key?
    | .field key _ => some key
    | _ => none

@[ext] structure Conditions where
  terms : List Term := []
  /-- each key is compared once -/
  nodup : (Entries.keys terms).Nodup := by exact List.nodup_nil
  deriving DecidableEq, Repr

instance : Inhabited Conditions := ⟨{}⟩

namespace Conditions

/-- The terms with one more; a comparison takes the place of one with the same key. -/
def push (cs : Conditions) (t : Term) : Conditions :=
  ⟨Entries.insert cs.terms t, Entries.nodup_keys_insert cs.nodup t⟩

def merge (cs ds : Conditions) : Conditions :=
  ⟨Entries.merge cs.terms ds.terms, Entries.nodup_keys_merge cs.nodup _⟩

def ofList (ts : List Term) : Conditions := ⟨Entries.ofList ts, Entries.nodup_keys_ofList ts⟩

def size (cs : Conditions) : Nat := cs.terms.length

def isEmpty (cs : Conditions) : Bool := cs.terms.isEmpty

end Conditions

inductive Condition where
  | raw (sql : String)
  | structured (cs : Conditions)
  deriving DecidableEq, Repr, Inhabited

namespace Condition

/-- Whether the condition restricts nothing: a blank text, or no terms. -/
def isEmpty : Condition → Bool
  | raw sql => Text.isBlankText sql
  | structured cs => cs.isEmpty

/-- An empty condition counts for nothing, and a text among terms is one fragment. -/
def and (a b : Condition) : Condition :=
  if b.isEmpty then a
  else if a.isEmpty then b
  else
    match a, b with
    | raw s, raw t => raw (s ++ " AND (" ++ t ++ ")")
    | structured cs, structured ds => structured (cs.merge ds)
    | raw s, structured ds => structured ((Conditions.ofList [.raw s]).merge ds)
    | structured cs, raw t => structured (cs.push (.raw t))

end Condition

end SqlStatement
