import SqlStatement.Builder.Basic
import SqlStatement.Json.Reader

/-!
# Builders from settings

A builder can be described by a JSON object of optional texts and a limit.
-/

namespace SqlStatement

structure BuilderConfig where
  command : Option String := none
  table : Option String := none
  label : Option String := none
  select : Option String := none
  filter : Option String := none
  limit : Option Limit := none
  sort : Option String := none
  group : Option String := none
  forceIndex : Option String := none
  deriving DecidableEq, Repr

namespace BuilderConfig

def fieldNames : List (List String) :=
  [["command"], ["table"], ["alias"], ["select"], ["where"], ["limit"], ["sort"], ["group"],
    ["force_index"]]

def integerOf? : Json → Option Int64
  | .int n => Integer.inRange? n
  | _ => none

/-- The value of the only member with the name; none in the outer sense if there are several. -/
def uniqueOf? (name : String) (members : List (String × Json)) : Option (Option Json) :=
  match members.filter fun m => m.1 == name with
  | [] => some none
  | [m] => some (some m.2)
  | _ => none

/-- A page: a limit, and an offset that may be missing or null. -/
def pageOf? (members : List (String × Json)) : Option Limit := do
  let limit ← uniqueOf? "limit" members
  let offset ← uniqueOf? "offset" members
  let limit ← limit.bind integerOf?
  match offset with
  | none => some (.page limit none)
  | some .null => some (.page limit none)
  | some v => (integerOf? v).map fun n => .page limit (some n)

/-- The levels of nesting that are left for a limit inside a description. -/
def limitDepth : Nat := 127

def limitOf? (doc : Json.Document) : Option Limit := do
  match ← doc.toJson? limitDepth with
  | .int n => (Integer.inRange? n).map .count
  | .object members => pageOf? members
  | .text s => some (.raw s)
  | _ => none

def optional? {α : Type} (read : Json.Document → Option α) :
    Option Json.Document → Option (Option α)
  | none => some none
  | some doc => doc.nullable? read

def ofDocument? (doc : Json.Document) : Option BuilderConfig := do
  let text := optional? Json.Document.text?
  match ← doc.fields? fieldNames with
  | [command, table, label, select, filter, limit, sort, group, forceIndex] =>
    let command ← text command
    let table ← text table
    let label ← text label
    let select ← text select
    let filter ← text filter
    let limit ← optional? limitOf? limit
    let sort ← text sort
    let group ← text group
    let forceIndex ← text forceIndex
    some { command, table, label, select, filter, limit, sort, group, forceIndex }
  | _ => none

def ofJson? (s : String) : Option BuilderConfig := (Json.Document.parse? s).bind ofDocument?

/-- The table that is described; an alias alone is none. -/
def tableName? (c : BuilderConfig) : Option TableName :=
  c.table.map fun name =>
    match c.label with
    | some label => .aliased name label
    | none => .plain name

def criteria (c : BuilderConfig) : Criteria :=
  { filter := c.filter.map .raw, limit := c.limit, sort := c.sort.map .raw, group := c.group }

def draftFor (c : BuilderConfig) (command : Command) : Draft :=
  { criteria := c.criteria
    command := command
    table := c.tableName?.map TableName.text
    columns := ((c.select.map fun s => [s]).getD []).map Text.trim |>.filter (· ≠ "")
    forceIndex := c.forceIndex }

def draft (c : BuilderConfig) : Except Error Draft :=
  match c.command with
  | none => .ok (c.draftFor .select)
  | some text => (Command.read text).map c.draftFor

end BuilderConfig

def Builder.ofJson (s : String) : Except Error Builder :=
  match BuilderConfig.ofJson? s with
  | none => .error .serialization
  | some config => config.draft.map fun draft => { draft }

end SqlStatement
