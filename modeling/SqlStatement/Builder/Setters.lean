import SqlStatement.Builder.Basic

/-!
# Setters of builders

Some setters change the draft themselves, the others by way of these.

* `Builder.Setter` : a setter with its arguments;
* `Builder.Setter.apply_eq_edit` : a setter is a change of the draft and nothing else.
-/

namespace SqlStatement.Builder

variable (b : Builder)

/-! ## Command, table and columns -/

def command (c : Command) : Builder := b.edit (·.setCommand c)

def table (t : TableName) : Builder := b.edit (·.setTable t)

def onTable (t : TableName) : Builder := ({} : Builder).table t

def columns (columns : List String) : Builder := b.edit (·.setColumns columns)

def select (columns : List String) : Builder := (b.columns columns).command .select

/-- The map is registered before the statement rendered so far is dropped by the selection. -/
def selectMap (key : String) (fields : MapFields) : Builder :=
  { b with draft := b.draft.registerMap key fields }.select
    (Draft.mapProjection (splitListMark key).1 fields)

@[simp] theorem draft_selectMap (key : String) (fields : MapFields) :
    (b.selectMap key fields).draft = b.draft.selectMap key fields := rfl

def forceIndex (index : String) : Builder := b.edit (·.setForceIndex index)

def cache (flag : Option Bool) : Builder := b.edit (·.setCache flag)

/-! ## Joins -/

def join (kind : String) (t : TableName) (on : Condition) : Builder := b.edit (·.join kind t on)

def leftJoin (t : TableName) (on : Condition) : Builder := b.join "LEFT JOIN" t on

def innerJoin (t : TableName) (on : Condition) : Builder := b.join "INNER JOIN" t on

def rightJoin (t : TableName) (on : Condition) : Builder := b.join "RIGHT JOIN" t on

/-! ## Criteria -/

def setWhere (condition : Condition) : Builder := b.edit (·.withCriteria (·.setWhere condition))

def whereWith (condition : Condition) (ps : Params) : Builder :=
  b.edit (·.withCriteria (·.whereWith condition ps))

def andWhere (condition : Condition) : Builder := b.edit (·.withCriteria (·.andWhere condition))

def andWhereWith (condition : Condition) (ps : Params) : Builder :=
  b.edit (·.withCriteria (·.andWhereWith condition ps))

def params (ps : Params) : Builder := b.edit (·.withCriteria (·.setParams ps))

def mergeParams (ps : Params) : Builder := b.edit (·.withCriteria (·.mergeParams ps))

def limit (l : Limit) : Builder := b.edit (·.withCriteria (·.setLimit l))

def sort (s : SortOrder) : Builder := b.edit (·.withCriteria (·.setSort s))

def group (g : String) : Builder := b.edit (·.withCriteria (·.setGroup g))

def having (condition : Condition) : Builder := b.edit (·.withCriteria (·.setHaving condition))

def havingWith (condition : Condition) (ps : Params) : Builder :=
  b.edit (·.withCriteria (·.havingWith condition ps))

/-! ## Values and changes of rows -/

def values (vs : Values) : Builder := b.edit (·.setValues vs)

def mergeValues (vs : Values) : Builder := b.edit (·.mergeValues vs)

def insert : Builder := b.command .insert

def insertInto (t : TableName) (vs : Values) : Builder := ((b.table t).values vs).insert

/-- Setting the command has dropped the rendered statement, and the mark for replacing too. -/
def replace : Builder := { b.command .insert with draft.replace := true }

def update : Builder := b.command .update

def updateTable (t : TableName) (vs : Values) (condition : Condition) : Builder :=
  (((b.table t).values vs).setWhere condition).update

def delete : Builder := b.command .delete

def deleteFrom (t : TableName) (condition : Condition) : Builder :=
  ((b.table t).setWhere condition).delete

/-! ## Setters with their arguments -/

inductive Setter where
  | command (c : Command)
  | table (t : TableName)
  | columns (columns : List String)
  | select (columns : List String)
  | selectMap (key : String) (fields : MapFields)
  | forceIndex (index : String)
  | cache (flag : Option Bool)
  | join (kind : String) (t : TableName) (on : Condition)
  | leftJoin (t : TableName) (on : Condition)
  | innerJoin (t : TableName) (on : Condition)
  | rightJoin (t : TableName) (on : Condition)
  | setWhere (condition : Condition)
  | whereWith (condition : Condition) (ps : Params)
  | andWhere (condition : Condition)
  | andWhereWith (condition : Condition) (ps : Params)
  | params (ps : Params)
  | mergeParams (ps : Params)
  | limit (l : Limit)
  | sort (s : SortOrder)
  | group (g : String)
  | having (condition : Condition)
  | havingWith (condition : Condition) (ps : Params)
  | values (vs : Values)
  | mergeValues (vs : Values)
  | insert
  | insertInto (t : TableName) (vs : Values)
  | replace
  | update
  | updateTable (t : TableName) (vs : Values) (condition : Condition)
  | delete
  | deleteFrom (t : TableName) (condition : Condition)

namespace Setter

def apply : Setter → Builder
  | command c => b.command c
  | table t => b.table t
  | columns cs => b.columns cs
  | select cs => b.select cs
  | selectMap key fields => b.selectMap key fields
  | forceIndex index => b.forceIndex index
  | cache flag => b.cache flag
  | join kind t on => b.join kind t on
  | leftJoin t on => b.leftJoin t on
  | innerJoin t on => b.innerJoin t on
  | rightJoin t on => b.rightJoin t on
  | setWhere condition => b.setWhere condition
  | whereWith condition ps => b.whereWith condition ps
  | andWhere condition => b.andWhere condition
  | andWhereWith condition ps => b.andWhereWith condition ps
  | params ps => b.params ps
  | mergeParams ps => b.mergeParams ps
  | limit l => b.limit l
  | sort s => b.sort s
  | group g => b.group g
  | having condition => b.having condition
  | havingWith condition ps => b.havingWith condition ps
  | values vs => b.values vs
  | mergeValues vs => b.mergeValues vs
  | insert => b.insert
  | insertInto t vs => b.insertInto t vs
  | replace => b.replace
  | update => b.update
  | updateTable t vs condition => b.updateTable t vs condition
  | delete => b.delete
  | deleteFrom t condition => b.deleteFrom t condition

/-- What a setter makes of a draft. -/
def change (x : Setter) (d : Draft) : Draft := (x.apply { draft := d }).draft

/-- The new draft depends on the old one alone, and no setter leaves a rendered statement behind. -/
theorem apply_eq_edit (x : Setter) : x.apply b = b.edit x.change := by
  cases x <;> rfl

end Setter

end SqlStatement.Builder
