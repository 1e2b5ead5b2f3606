import SqlStatement.Builder.Setters
import SqlStatement.Query.Fetch

/-!
# Running what a builder renders
-/

namespace SqlStatement

def Statement.query (s : Statement) (option : Option MapOption) : Query :=
  { sql := s.sql, params := s.params, mapOption := option }

namespace Builder

def build (b : Builder) : Except Error Query × Builder :=
  (b.toSql.1.map (·.query b.draft.mapOption), b.toSql.2)

def buildWith (b : Builder) (c : ConnectionId) : Except Error Query × Builder :=
  (b.build.1.map (·.setConnection c), b.build.2)

/-- Builds a query on a connection for one use and closes it. -/
def use {α : Type} (b : Builder) (c : ConnectionId) (d : Driver) (f : Query → Driver → Outcome α) :
    Except Error α × Builder × Driver :=
  match b.buildWith c with
  | (.error e, b) => (.error e, b, d)
  | (.ok q, b) =>
    let (result, q, d) := f q d
    (result, b, (q.close d).2)

def execute (b : Builder) (c : ConnectionId) (d : Driver) : Except Error Nat × Builder × Driver :=
  if b.draft.command = .select then (.error .wrongCommandForExecute, b, d)
  else b.use c d Query.execute

/-- Counts a column's values among the rows of the draft. The builder itself stays as it is. -/
def countColumn (b : Builder) (c : ConnectionId) (d : Driver) (column : String) :
    Except Error Int64 × Driver :=
  let (result, _, d) := (b.select ["COUNT(" ++ column ++ ")"]).use c d Query.fetchScalar
  (result >>= fun
    | none => .error (.emptyCount column)
    | some v => .ok v.toInteger, d)

def count (b : Builder) (c : ConnectionId) (d : Driver) : Except Error Int64 × Driver :=
  b.countColumn c d "1"

def exists? (b : Builder) (c : ConnectionId) (d : Driver) : Except Error Bool × Driver :=
  let (result, _, d) := ((b.select ["1"]).limit (.count 1)).use c d Query.fetchScalar
  (result.map Option.isSome, d)

end Builder

end SqlStatement
