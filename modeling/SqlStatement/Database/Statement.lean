import SqlStatement.Driver.Placeholder
import SqlStatement.Driver.ResultSet
import SqlStatement.Driver.Server

/-!
# Statements on a database

A database knows parameters by position. It is asked either for the rows of a statement or for its
effect, and the text of the statement decides which. What the database answers is its own affair, so
it is left open here.
-/

namespace SqlStatement

/-- A text of an integer is sent as one, and truth as a text is `1` or empty. -/
def BoundParam.sent (p : BoundParam) : Value :=
  match p.type, p.value with
  | .null, _ => .null
  | .integer, .text s =>
    match Integer.signed? s with
    | some n => .int n
    | none => .text s
  | .text, .bool b => .text (if b then "1" else "")
  | _, v => v

structure Database.Effect where
  affected : Nat
  /-- the key that the database has generated -/
  generated : Option Int64
  deriving DecidableEq, Repr

/-- A database with states `σ`. It is given a statement with the values for its question marks. -/
structure Database (σ : Type) where
  rows : String → List Value → σ → Except Error (List Row) × σ
  effect : String → List Value → σ → Except Error Database.Effect × σ

namespace Database

structure Session (σ : Type) where
  database : Database σ
  state : σ
  /-- the key that the database has generated last -/
  generated : Option Int64 := none

structure Statement where
  /-- the text with question marks -/
  sql : String
  order : List ParamKey
  bindings : List (ParamKey × Value) := []
  /-- the rows of its result that have not been fetched -/
  cursor : List Row := []
  deriving DecidableEq, Repr

variable {σ : Type}

def Session.lastInsertId (s : Session σ) : Value := (s.generated.map Value.int).getD .null

namespace Statement

def prepare (sql : String) : Statement := ⟨(positional sql).sql, (positional sql).order, [], []⟩

def bind (st : Statement) (p : BoundParam) : Statement :=
  { st with bindings := Entries.insert st.bindings (p.key, p.sent) }

def argument (st : Statement) (key : ParamKey) : Except Error Value :=
  match Entries.find? key st.bindings with
  | some (_, v) => .ok v
  | none => .error (.driver (.failed ("parameter " ++ key.display ++ " was not bound")))

def arguments (st : Statement) : Except Error (List Value) := st.order.mapM st.argument

def askRows (st : Statement) (s : Session σ) (values : List Value) :
    Except Error Nat × Statement × Session σ :=
  match s.database.rows st.sql values s.state with
  | (.error e, state) => (.error e, st, { s with state })
  | (.ok rows, state) => (.ok rows.length, { st with cursor := rows }, { s with state })

/-- Asks for the effect of the statement, of which the session remembers the generated key. -/
def askEffect (st : Statement) (s : Session σ) (values : List Value) :
    Except Error Nat × Statement × Session σ :=
  match s.database.effect st.sql values s.state with
  | (.error e, state) => (.error e, st, { s with state })
  | (.ok x, state) =>
    (.ok x.affected, { st with cursor := [] },
      { s with state, generated := x.generated.or s.generated })

/-- Executes the statement for its rows or for its effect, and gives the number of rows. -/
def executeFor (yields : Bool) (st : Statement) (s : Session σ) :
    Except Error Nat × Statement × Session σ :=
  match st.arguments with
  | .error e => (.error e, st, s)
  | .ok values => if yields then st.askRows s values else st.askEffect s values

def execute (st : Statement) (s : Session σ) : Except Error Nat × Statement × Session σ :=
  st.executeFor (returnsRows st.sql) s

def fetch (st : Statement) : Option Row × Statement :=
  (st.cursor.head?, { st with cursor := st.cursor.tail })

def fetchAll (st : Statement) : List Row × Statement := (st.cursor, { st with cursor := [] })

def closeCursor (st : Statement) : Statement := { st with cursor := [] }

end Statement

end Database

end SqlStatement
