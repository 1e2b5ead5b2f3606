import SqlStatement.Query.Basic
import SqlStatement.Row.FetchMap

/-!
# Results of queries

Each function runs the query and gives its result in one form.
-/

namespace SqlStatement

/-- What a run of a query gives, with the query and the driver afterwards. -/
abbrev Outcome (α : Type) := Except Error α × Query × Driver

def Outcome.map {α β : Type} (f : α → β) (o : Outcome α) : Outcome β := (o.1.map f, o.2)

def Outcome.bind {α β : Type} (f : α → Except Error β) (o : Outcome α) : Outcome β :=
  (o.1 >>= f, o.2)

namespace Query

def runAnd {α : Type} (read : Driver → HandleId → α × Driver) (q : Query) (d : Driver) :
    Outcome α :=
  match q.run d with
  | (.error e, q, d) => (.error e, q, d)
  | (.ok (_, h), q, d) => (.ok (read d h).1, q, (read d h).2)

def fetchAll (q : Query) (d : Driver) : Outcome (List Row) := q.runAnd Driver.fetchAll d

def fetchRow (q : Query) (d : Driver) : Outcome (Option Row) := q.runAnd Driver.fetch d

def fetchAllCells (q : Query) (d : Driver) : Outcome (List (List Value)) :=
  (q.fetchAll d).map fun rows => rows.map (·.values)

def fetchRowCells (q : Query) (d : Driver) : Outcome (Option (List Value)) :=
  (q.fetchRow d).map fun row => row.map (·.values)

/-- The first cell of each row; a row without cells counts as null. -/
def fetchColumn (q : Query) (d : Driver) : Outcome (List Value) :=
  (q.fetchAll d).map fun rows => rows.map fun r => r.values.headD .null

def fetchScalar (q : Query) (d : Driver) : Outcome (Option Value) :=
  (q.fetchRow d).map fun row => row.bind (·.values.head?)

def fetchRecords (α : Type) [RecordOf α] (q : Query) (d : Driver) : Outcome (List α) :=
  (q.fetchAll d).bind fun rows => rows.mapM (Row.record α)

def fetchRecord (α : Type) [RecordOf α] (q : Query) (d : Driver) : Outcome (Option α) :=
  (q.fetchRow d).bind fun
    | none => .ok none
    | some row => (row.record α).map some

/-- The rows collected into a map, by the option given or else by the one of the query. -/
def fetchMap (q : Query) (d : Driver) (option : Option MapOption) : Outcome FetchMap :=
  match option.or q.mapOption with
  | none => (.error .missingMapOption, q, d)
  | some option => (q.fetchAll d).bind (FetchMap.build option)

end Query

end SqlStatement
