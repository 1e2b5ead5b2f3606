import SqlStatement.Builder.Run

/-!
# Repositories

A `Repository` is a table on a connection, with the statements that are needed most.
-/

namespace SqlStatement

structure Repository where
  table : String
  connection : ConnectionId
  deriving DecidableEq, Repr

namespace Repository

def builder (r : Repository) : Builder := Builder.onTable (.plain r.table)

/-- Runs a builder that is not needed afterwards. -/
def once {α : Type} (r : Repository) (d : Driver) (b : Builder)
    (run : Builder → ConnectionId → Driver → Except Error α × Builder × Driver) :
    Except Error α × Driver :=
  let (result, _, d) := run b r.connection d
  (result, d)

def getOne (r : Repository) (d : Driver) (columns : List String) (condition : Condition) :
    Except Error (Option Row) × Driver :=
  r.once d (((r.builder.select columns).setWhere condition).limit (.count 1))
    fun b c d => b.use c d Query.fetchRow

def getAll (r : Repository) (d : Driver) (columns : List String) (condition : Condition) :
    Except Error (List Row) × Driver :=
  r.once d ((r.builder.select columns).setWhere condition) fun b c d => b.use c d Query.fetchAll

def insert (r : Repository) (d : Driver) (vs : Values) : Except Error Nat × Driver :=
  r.once d (r.builder.values vs).insert Builder.execute

def replace (r : Repository) (d : Driver) (vs : Values) : Except Error Nat × Driver :=
  r.once d (r.builder.values vs).replace Builder.execute

def update (r : Repository) (d : Driver) (vs : Values) (condition : Condition) :
    Except Error Nat × Driver :=
  r.once d ((r.builder.values vs).setWhere condition).update Builder.execute

def delete (r : Repository) (d : Driver) (condition : Condition) : Except Error Nat × Driver :=
  r.once d (r.builder.setWhere condition).delete Builder.execute

def exists? (r : Repository) (d : Driver) (condition : Condition) : Except Error Bool × Driver :=
  (r.builder.setWhere condition).exists? r.connection d

def count (r : Repository) (d : Driver) (condition : Condition) : Except Error Int64 × Driver :=
  (r.builder.setWhere condition).count r.connection d

inductive Aggregate where
  | max
  | min
  | avg
  | sum
  deriving DecidableEq, Repr

def Aggregate.keyword : Aggregate → String
  | max => "MAX"
  | min => "MIN"
  | avg => "AVG"
  | sum => "SUM"

def aggregate (r : Repository) (d : Driver) (f : Aggregate) (column : String)
    (condition : Condition) : Except Error (Option Value) × Driver :=
  r.once d ((r.builder.select [f.keyword ++ "(" ++ column ++ ")"]).setWhere condition)
    fun b c d => b.use c d Query.fetchScalar

def lastInsertId (r : Repository) (d : Driver) : Value := d.lastInsertId r.connection

def attributeNames : List String :=
  ["AUTOCOMMIT", "CLIENT_VERSION", "CONNECTION_STATUS", "DRIVER_NAME", "SERVER_INFO",
    "SERVER_VERSION"]

/-- An attribute; one that is null or not supported is the empty text. -/
def readAttribute (r : Repository) (d : Driver) (name : String) : Value :=
  match d.readAttribute r.connection name with
  | .ok .null => .text ""
  | .ok v => v
  | .error _ => .text ""

def attributes (r : Repository) (d : Driver) : List (String × Value) :=
  attributeNames.map fun name => (name, r.readAttribute d name)

end Repository

end SqlStatement
