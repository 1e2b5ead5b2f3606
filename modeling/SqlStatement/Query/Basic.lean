import SqlStatement.Driver.Basic
import SqlStatement.Params.Basic
import SqlStatement.Row.MapOption

/-!
# Queries

A `Query` is a statement with its parameters that is prepared when it is first run and kept prepared
for further runs on the same connection. Parameters bound to a value reach the prepared statement
once, those bound to a slot before each run.
-/

namespace SqlStatement

structure Query where
  sql : String
  params : Params := {}
  /-- how results are collected into a map, unless told otherwise -/
  mapOption : Option MapOption := none
  connection : Option ConnectionId := none
  /-- the connection on which the statement was prepared last -/
  lastConnection : Option ConnectionId := none
  handle : Option HandleId := none
  deriving DecidableEq, Repr, Inhabited

def bindAll (d : Driver) (h : HandleId) : List (ParamKey × Binding) → Except Error Unit × Driver
  | [] => (.ok (), d)
  | (key, binding) :: rest =>
    match d.bind h (.of key (binding.current d.slots)) with
    | (.error e, d) => (.error e, d)
    | (.ok (), d) => bindAll d h rest

namespace Query

/-! ## Parameters -/

def close (q : Query) (d : Driver) : Query × Driver :=
  match q.handle with
  | none => (q, d)
  | some h => ({ q with handle := none }, d.closeCursor h)

/-- Binds a parameter, of the prepared statement too if there is one. -/
def bind (q : Query) (d : Driver) (key : ParamKey) (binding : Binding) :
    Except Error Unit × Query × Driver :=
  let bound := { q with params := q.params.bind key binding }
  match q.handle with
  | none => (.ok (), bound, d)
  | some h =>
    let d := d.closeCursor h
    match d.bind h (.of key (binding.current d.slots)) with
    | (.error e, d) => (.error e, q, d)
    | (.ok (), d) => (.ok (), bound, d)

def bindInteger (q : Query) (d : Driver) (key : ParamKey) (v : Value) :
    Except Error Unit × Query × Driver :=
  q.bind d key (.value v.coerceInteger)

/-- Sets all parameters and gives up the prepared statement. -/
def setParams (q : Query) (d : Driver) (ps : Params) : Query × Driver :=
  { q with params := ps }.close d

def setConnection (q : Query) (c : ConnectionId) : Query := { q with connection := some c }

/-! ## Running -/

def prepareOn (q : Query) (d : Driver) (c : ConnectionId) :
    Except Error HandleId × Query × Driver :=
  match d.prepare c q.sql with
  | (.error e, d) => (.error e, q, d)
  | (.ok h, d) =>
    match bindAll d h q.params.entries with
    | (.error e, d) => (.error e, q, d.closeCursor h)
    | (.ok (), d) => (.ok h, { q with lastConnection := some c, handle := some h }, d)

/-- Closes the cursor of a prepared statement and binds again what is read from slots. -/
def reuse (q : Query) (d : Driver) (h : HandleId) : Except Error HandleId × Query × Driver :=
  match bindAll (d.closeCursor h) h (q.params.entries.filter (·.2.isSlot)) with
  | (.error e, d) => (.error e, { q with handle := none }, d.closeCursor h)
  | (.ok (), d) => (.ok h, q, d)

/-- Gives up a statement that was prepared on another connection. -/
def leave (q : Query) (d : Driver) (c : ConnectionId) : Query × Driver :=
  match q.lastConnection with
  | none => (q, d)
  | some last => if last = c then (q, d) else q.close d

def ensurePrepared (q : Query) (d : Driver) : Except Error HandleId × Query × Driver :=
  match q.connection with
  | none => (.error .missingConnection, q, d)
  | some c =>
    let (q, d) := q.leave d c
    match q.handle with
    | some h => q.reuse d h
    | none => q.prepareOn d c

def run (q : Query) (d : Driver) : Except Error (Nat × HandleId) × Query × Driver :=
  match q.ensurePrepared d with
  | (.error e, q, d) => (.error e, q, d)
  | (.ok h, q, d) =>
    match d.execute h with
    | (.error e, d) => (.error e, q, d)
    | (.ok n, d) => (.ok (n, h), q, d)

def execute (q : Query) (d : Driver) : Except Error Nat × Query × Driver :=
  let (result, q, d) := q.run d
  (result.map (·.1), q, d)

/-- The key of the row inserted last on the connection of the last run; none before the first. -/
def insertedId (q : Query) (d : Driver) : Option Value := q.lastConnection.map d.lastInsertId

end Query

end SqlStatement
