import SqlStatement.Builder.Draft
import SqlStatement.Criteria.Compile

/-!
# The SQL of a draft

`insertAssignment` and `updateAssignment` give what one assignment contributes to an insertion or an
update, `Draft.compile` puts the parts of each command together.
-/

namespace SqlStatement

def Compiled.joinWith (sep : String) : List Compiled → Compiled
  | [] => .ok []
  | [c] => c
  | c :: cs => c ++ Compiled.after [.text sep] (joinWith sep cs)

def Join.compile (j : Join) : Compiled :=
  Compiled.after [.text (" " ++ j.kind ++ " " ++ j.table ++ " ON ")] j.condition.compile

def compileJoins : List Join → Compiled
  | [] => .ok []
  | j :: js => j.compile ++ compileJoins js

/-! ## Insertions -/

structure Contribution where
  column : String
  content : Piece
  deriving DecidableEq, Repr

/-- The right-hand side of `column=content`: a placeholder of the caller or, after `{:`, SQL, and
otherwise a value without the quotes around it. A lone `?` cannot be bound by name. -/
def insertContent (content : String) : Except Error Piece :=
  if (Text.dropStart? ":" content).isSome then .ok (.text content)
  else
    match Text.dropStart? "\x7b:" content with
    | some sql => .ok (.text sql)
    | none =>
      if content = "?" then .error (.unsupportedPlaceholder content)
      else .ok (.value (Value.text content).unquoted)

/-- What an expression inserts; nothing without a right-hand side. -/
def insertExpression (expr : String) : Except Error (Option Contribution) :=
  match Text.cut? '=' expr with
  | none => .ok none
  | some (column, content) =>
    if Text.trim content = "" then .ok none
    else (insertContent (Text.trim content)).map fun piece => some ⟨Text.trim column, piece⟩

def insertAssignment (index : Nat) : Assignment → Except Error (Option Contribution)
  | .column name v => .ok (some ⟨name, .value v⟩)
  | .expr (.text expr) => insertExpression expr
  | .expr v => .error (.invalidExpression .insert index v.typeName)

/-- The contributions after one more. It has been written also if an error comes up later. -/
def Contribution.prepend (c : Option Contribution) :
    Except Failure (List Contribution) → Except Failure (List Contribution)
  | .error f => .error ⟨c.toList.map (·.content) ++ f.written, f.error⟩
  | .ok cs => .ok (c.toList ++ cs)

def insertContributions (index : Nat) : List Assignment → Except Failure (List Contribution)
  | [] => .ok []
  | a :: as =>
    match insertAssignment index a with
    | .error e => .error ⟨[], e⟩
    | .ok c => Contribution.prepend c (insertContributions (index + 1) as)

def insertLists (cs : List Contribution) : Template :=
  .text (" (" ++ ",".intercalate (cs.map (·.column)) ++ ") VALUES (") ::
    Template.joinWith "," (cs.map fun c => [c.content]) ++ [.text ")"]

/-! ## Updates -/

/-- What an assignment sets. Null is written out, truth values are refused. -/
def updateAssignment (index : Nat) : Assignment → Compiled
  | .column name .null => .text (name ++ " = NULL")
  | .column name (.bool _) => .fail (.booleanUpdate name)
  | .column name v => .ok [.text (name ++ " = "), .value v.unquoted]
  | .expr (.text expr) => .text expr
  | .expr v => .fail (.invalidExpression .update index v.typeName)

def compileAssignments (as : List Assignment) : Compiled :=
  Compiled.joinWith "," (as.zipIdx.map fun (a, index) => updateAssignment index a)

/-! ## Statements -/

namespace Draft

/-- The table; an empty text is none. -/
def table? (d : Draft) : Option String := d.table.filter (· ≠ "")

def cacheHint (d : Draft) : String :=
  match d.cache with
  | some true => " SQL_CACHE"
  | some false => " SQL_NO_CACHE"
  | none => ""

/-- The hint on the index to use, with a blank in front; a blank index is none. -/
def indexHint (d : Draft) : String :=
  match d.forceIndex with
  | some index => if Text.isBlankText index then "" else " FORCE INDEX (" ++ index ++ ")"
  | none => ""

def compileSelect (d : Draft) (table : String) : Compiled :=
  .text ("SELECT" ++ d.cacheHint ++ " " ++ d.projection ++ " FROM " ++ table ++ d.indexHint) ++
    compileJoins d.joins ++ d.criteria.compile

def compileInsert (d : Draft) (table : String) : Compiled :=
  if d.values.isEmpty then .fail (.emptyValues .insert)
  else
    (insertContributions 0 d.values.entries).map fun cs =>
      .text ((if d.replace then "REPLACE" else "INSERT") ++ " INTO " ++ table) :: insertLists cs

def compileUpdate (d : Draft) (table : String) : Compiled :=
  if d.values.isEmpty then .fail (.emptyValues .update)
  else
    .text ("UPDATE " ++ table) ++ compileJoins d.joins ++ .text " SET " ++
      compileAssignments d.values.entries ++ d.criteria.compile

def compileDelete (d : Draft) (table : String) : Compiled :=
  .text ("DELETE FROM " ++ table) ++ d.criteria.compile

def compile (d : Draft) : Compiled :=
  match d.table? with
  | none => .fail .missingTable
  | some table =>
    match d.command with
    | .select => d.compileSelect table
    | .insert => d.compileInsert table
    | .update => d.compileUpdate table
    | .delete => d.compileDelete table

end Draft

end SqlStatement
