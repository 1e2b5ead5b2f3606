import SqlStatement.Entries
import SqlStatement.Value.Basic

/-!
# Values to write

`Values` lists what a statement writes into a row: values for columns, each column once, and
expressions. Assigning to a column again replaces the value in place.
-/

namespace SqlStatement

inductive Assignment where
  | column (name : String) (v : Value)
  /-- an expression; statements accept texts only -/
  | expr (v : Value)
  deriving DecidableEq, Repr, Inhabited

instance : HasKey Assignment String where
  key?
    | .column name _ => some name
    | .expr _ => none

/-- What a statement writes into a row, in order. -/
@[ext] structure Values where
  entries : List Assignment := []
  /-- each column is assigned to once -/
  nodup : (Entries.keys entries).Nodup := by exact List.nodup_nil
  deriving DecidableEq, Repr

instance : Inhabited Values := ⟨{}⟩

namespace Values

def push (vs : Values) (a : Assignment) : Values :=
  ⟨Entries.insert vs.entries a, Entries.nodup_keys_insert vs.nodup a⟩

def merge (vs ws : Values) : Values :=
  ⟨Entries.merge vs.entries ws.entries, Entries.nodup_keys_merge vs.nodup _⟩

def ofList (entries : List Assignment) : Values :=
  ⟨Entries.ofList entries, Entries.nodup_keys_ofList entries⟩

def ofTexts (exprs : List String) : Values := ofList (exprs.map fun e => .expr (.text e))

def size (vs : Values) : Nat := vs.entries.length

def isEmpty (vs : Values) : Bool := vs.entries.isEmpty

end Values

end SqlStatement
