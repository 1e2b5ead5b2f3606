import SqlStatement.Builder.Values
import SqlStatement.Command
import SqlStatement.Criteria.Basic
import SqlStatement.ResultColumn
import SqlStatement.Row.MapOption

/-!
# Drafts of statements

A `Draft` is what a statement is to say: its command, table, columns, joins, values and criteria.
Nothing is checked before the draft is compiled.
-/

namespace SqlStatement

inductive TableName where
  | plain (name : String)
  | aliased (name label : String)
  deriving DecidableEq, Repr, Inhabited

/-- An alias is left out if it is blank or the name already has a space in it. -/
def TableName.text : TableName → String
  | plain name => Text.trim name
  | aliased name label =>
    if Text.trim label = "" ∨ Text.hasChar ' ' (Text.trim name) then Text.trim name
    else Text.trim name ++ " " ++ Text.trim label

structure Join where
  kind : String
  table : String
  condition : Condition
  deriving DecidableEq, Repr, Inhabited

structure Draft where
  criteria : Criteria := {}
  command : Command := .select
  table : Option String := none
  columns : List String := []
  forceIndex : Option String := none
  joins : List Join := []
  values : Values := {}
  /-- whether the database is told to cache the result, or not to -/
  cache : Option Bool := none
  /-- whether inserted rows replace those with the same key -/
  replace : Bool := false
  mapOption : Option MapOption := none
  deriving DecidableEq, Repr, Inhabited

namespace Draft

/-! ## Setting the parts -/

/-- Sets the command; rows are inserted without replacing others. -/
def setCommand (d : Draft) (c : Command) : Draft := { d with command := c, replace := false }

def setTable (d : Draft) (t : TableName) : Draft := { d with table := some t.text }

def setColumns (d : Draft) (columns : List String) : Draft :=
  { d with columns := (columns.map Text.trim).filter (· ≠ "") }

def select (d : Draft) (columns : List String) : Draft := (d.setColumns columns).setCommand .select

def setForceIndex (d : Draft) (index : String) : Draft := { d with forceIndex := some index }

def join (d : Draft) (kind : String) (table : TableName) (condition : Condition) : Draft :=
  { d with joins := d.joins ++ [⟨Text.upper (Text.trim kind), table.text, condition⟩] }

def setValues (d : Draft) (vs : Values) : Draft := { d with values := vs }

def mergeValues (d : Draft) (vs : Values) : Draft := { d with values := d.values.merge vs }

def setCache (d : Draft) (flag : Option Bool) : Draft := { d with cache := flag }

def withCriteria (d : Draft) (f : Criteria → Criteria) : Draft :=
  { d with criteria := f d.criteria }

/-! ## Selecting for a map -/

def distinct (xs : List String) : List String :=
  xs.foldl (fun seen x => if seen.contains x then seen else seen ++ [x]) []

theorem mem_distinct {x : String} {xs : List String} : x ∈ distinct xs ↔ x ∈ xs := by
  have hfold : ∀ seen : List String, x ∈ xs.foldl
      (fun seen y => if seen.contains y then seen else seen ++ [y]) seen ↔ x ∈ seen ∨ x ∈ xs := by
    induction xs with
    | nil => simp
    | cons y ys ih =>
      intro seen
      rw [List.foldl_cons, ih]
      by_cases hy : y ∈ seen
      · have hx : x = y → x ∈ seen := fun h => h ▸ hy
        simp only [List.contains_iff_mem, if_pos hy, List.mem_cons]
        exact ⟨fun h => h.imp_right Or.inr, fun h => h.elim Or.inl fun h => h.imp_left hx⟩
      · simp [hy, or_assoc]
  exact (hfold []).trans (by simp)

def mapProjection (key : String) : MapFields → List String
  | .all => ["*"]
  | .single field => distinct [key, field]
  | .many fields => distinct (key :: fields)

def resultFields : MapFields → MapFields
  | .all => .all
  | .single field => .single (resultColumn field)
  | .many fields => .many (fields.map resultColumn)

/-- Registers how the result of a selection is collected into a map, by the names of its columns. -/
def registerMap (d : Draft) (key : String) (fields : MapFields) : Draft :=
  { d with
    mapOption :=
      some ⟨resultColumn (splitListMark key).1, (splitListMark key).2, resultFields fields⟩ }

def selectMap (d : Draft) (key : String) (fields : MapFields) : Draft :=
  (d.registerMap key fields).select (mapProjection (splitListMark key).1 fields)

/-! ## Reading the parts -/

/-- The selected columns as they stand in a statement; none selects all. -/
def projection (d : Draft) : String := if d.columns.isEmpty then "*" else ",".intercalate d.columns

end Draft

end SqlStatement
