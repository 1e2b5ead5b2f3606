import SqlStatement.Driver.Server
import SqlStatement.Params.Slot

/-!
# Connections and prepared statements

A `Driver` holds servers, the connections to them, the statements prepared on these connections, and
the slots that parameters are read from. A connection can be told to fail.
-/

namespace SqlStatement

abbrev ServerId := Nat

abbrev ConnectionId := Nat

abbrev HandleId := Nat

structure Connection where
  server : ServerId
  hasAttributes : Bool := true
  failPrepare : Option String := none
  /-- the parameters whose binding fails -/
  failBind : List ParamKey := []
  deriving DecidableEq, Repr, Inhabited

structure Handle where
  connection : ConnectionId
  sql : String
  bindings : List BoundParam := []
  /-- the rows of its result that have not been fetched -/
  cursor : List Row := []
  deriving DecidableEq, Repr, Inhabited

inductive Call where
  | prepare (handle : HandleId) (connection : ConnectionId) (sql : String)
  | bind (handle : HandleId) (param : BoundParam)
  | execute (handle : HandleId)
  | close (handle : HandleId)
  deriving DecidableEq, Repr

structure Driver where
  servers : List Server := []
  connections : List Connection := []
  handles : List Handle := []
  slots : Slots := {}
  calls : List Call := []
  deriving DecidableEq, Repr, Inhabited

namespace Driver

/-! ## Parts -/

def server (d : Driver) (id : ServerId) : Server := d.servers.getD id {}

def connection (d : Driver) (id : ConnectionId) : Connection :=
  d.connections.getD id ⟨id, true, none, []⟩

def handle (d : Driver) (id : HandleId) : Handle := d.handles.getD id ⟨0, "", [], []⟩

def modifyServer (d : Driver) (id : ServerId) (f : Server → Server) : Driver :=
  { d with servers := d.servers.modify id f }

def modifyConnection (d : Driver) (id : ConnectionId) (f : Connection → Connection) : Driver :=
  { d with connections := d.connections.modify id f }

def modifyHandle (d : Driver) (id : HandleId) (f : Handle → Handle) : Driver :=
  { d with handles := d.handles.modify id f }

def record (d : Driver) (c : Call) : Driver := { d with calls := d.calls ++ [c] }

def serverOf (d : Driver) (c : ConnectionId) : Server := d.server (d.connection c).server

def modifyServerOf (d : Driver) (c : ConnectionId) (f : Server → Server) : Driver :=
  d.modifyServer (d.connection c).server f

def connect (d : Driver) (hasAttributes : Bool) : Driver :=
  { d with
    servers := d.servers ++ [{}]
    connections := d.connections ++ [⟨d.servers.length, hasAttributes, none, []⟩] }

/-- Opens another connection to the server that a connection leads to. -/
def share (d : Driver) (c : ConnectionId) (hasAttributes : Bool) : Driver :=
  { d with connections := d.connections ++ [⟨(d.connection c).server, hasAttributes, none, []⟩] }

/-! ## Calls -/

def prepare (d : Driver) (c : ConnectionId) (sql : String) : Except Error HandleId × Driver :=
  match (d.connection c).failPrepare with
  | some message => (.error (.driver (.failed message)), d)
  | none =>
    let id := d.handles.length
    let d := d.modifyServerOf c fun s => { s with prepared := s.prepared ++ [sql] }
    let d : Driver := { d with handles := d.handles ++ [⟨c, sql, [], []⟩] }
    (.ok id, d.record (.prepare id c sql))

def bind (d : Driver) (h : HandleId) (p : BoundParam) : Except Error Unit × Driver :=
  if (d.connection (d.handle h).connection).failBind.contains p.key then
    (.error (.driver (.cannotBind p.key)), d)
  else
    let d := d.modifyHandle h fun st => { st with bindings := Entries.insert st.bindings p }
    (.ok (), d.record (.bind h p))

/-- Gives the number of affected rows and puts the result before the statement's cursor. -/
def execute (d : Driver) (h : HandleId) : Except Error Nat × Driver :=
  let st := d.handle h
  let d := d.record (.execute h)
  match (d.serverOf st.connection).execute ⟨st.sql, st.bindings⟩ with
  | (.error e, _) => (.error e, d)
  | (.ok rows, s) =>
    let d := d.modifyServerOf st.connection fun _ => s
    (.ok s.affected, d.modifyHandle h fun st => { st with cursor := rows })

def fetch (d : Driver) (h : HandleId) : Option Row × Driver :=
  ((d.handle h).cursor.head?, d.modifyHandle h fun st => { st with cursor := st.cursor.tail })

def fetchAll (d : Driver) (h : HandleId) : List Row × Driver :=
  ((d.handle h).cursor, d.modifyHandle h fun st => { st with cursor := [] })

def closeCursor (d : Driver) (h : HandleId) : Driver :=
  let d := d.record (.close h)
  (d.modifyHandle h fun st => { st with cursor := [] }).modifyServerOf (d.handle h).connection
    fun s => { s with cursorCloses := s.cursorCloses + 1 }

/-! ## Questions -/

def lastInsertId (d : Driver) (c : ConnectionId) : Value := (d.serverOf c).lastInsertId

def readAttribute (d : Driver) (c : ConnectionId) (name : String) : Except Error Value :=
  if (d.connection c).hasAttributes then (d.serverOf c).readAttribute name
  else .error (.driver (.unknownAttribute name))

end Driver

end SqlStatement
