import SqlStatement.Entries
import SqlStatement.Params.Key
import SqlStatement.Row.Basic

/-!
# Recording servers

A `Server` stands in for a database. It answers executions with results that were put there
beforehand and keeps a record of what it was asked.
-/

namespace SqlStatement

structure BoundParam where
  key : ParamKey
  value : Value
  type : ParamType
  deriving DecidableEq, Repr, Inhabited

instance : HasKey BoundParam ParamKey := ⟨fun b => some b.key⟩

def BoundParam.of (key : ParamKey) (v : Value) : BoundParam := ⟨key, v, v.paramType⟩

structure Execution where
  sql : String
  bindings : List BoundParam
  deriving DecidableEq, Repr, Inhabited

def Execution.param? (e : Execution) (key : ParamKey) : Option BoundParam :=
  Entries.find? key e.bindings

structure Server where
  /-- the result of executions for which none is queued -/
  result : List Row := []
  /-- results for the next executions, each delivered once -/
  queued : List (List Row) := []
  affected : Nat := 0
  /-- why executions fail -/
  failure : Option String := none
  prepared : List String := []
  executions : List Execution := []
  cursorCloses : Nat := 0
  insertId : Option Int64 := none
  attributes : List (String × Value) := []
  deriving DecidableEq, Repr, Inhabited

namespace Server

/-! ## Preparing answers -/

def rowsOf (columns : List String) (rows : List (List Value)) : List Row :=
  rows.map (Row.mk columns)

def setResult (s : Server) (rows : List Row) : Server := { s with result := rows }

def enqueue (s : Server) (rows : List Row) : Server := { s with queued := s.queued ++ [rows] }

def setAffected (s : Server) (n : Nat) : Server := { s with affected := n }

def failWith (s : Server) (message : String) : Server := { s with failure := some message }

def setInsertId (s : Server) (id : Int64) : Server := { s with insertId := some id }

def setAttribute (s : Server) (name : String) (v : Value) : Server :=
  { s with attributes := Entries.insert s.attributes (name, v) }

/-! ## Answers -/

def nextResult (s : Server) : List Row := s.queued.head?.getD s.result

/-- A failing server records nothing and keeps its results. -/
def execute (s : Server) (e : Execution) : Except Error (List Row) × Server :=
  match s.failure with
  | some message => (.error (.driver (.failed message)), s)
  | none =>
    (.ok s.nextResult, { s with executions := s.executions ++ [e], queued := s.queued.tail })

/-- The key of the row inserted last; null before the first execution. -/
def lastInsertId (s : Server) : Value :=
  match s.insertId with
  | some id => if s.executions.isEmpty then .null else .int id
  | none => .null

def readAttribute (s : Server) (name : String) : Except Error Value :=
  match s.attributes.lookup name with
  | some v => .ok v
  | none => .error (.driver (.unknownAttribute name))

end Server

end SqlStatement
