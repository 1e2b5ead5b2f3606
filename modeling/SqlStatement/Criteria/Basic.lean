import SqlStatement.Condition.Basic
import SqlStatement.Criteria.Clause
import SqlStatement.Params.Basic

/-!
# Criteria

`Criteria` holds what restricts, groups and orders the rows of a statement, with the parameters that
the caller binds in its conditions: one set for the statement and one for the condition on groups.
-/

namespace SqlStatement

structure Criteria where
  filter : Option Condition := none
  params : Params := {}
  limit : Option Limit := none
  sort : Option SortOrder := none
  group : Option String := none
  having : Option Condition := none
  havingParams : Params := {}
  deriving DecidableEq, Repr, Inhabited

namespace Criteria

def setWhere (c : Criteria) (condition : Condition) : Criteria :=
  { c with filter := some condition }

def andWhere (c : Criteria) (condition : Condition) : Criteria :=
  { c with filter := some (match c.filter with
      | some existing => existing.and condition
      | none => condition) }

def setParams (c : Criteria) (ps : Params) : Criteria := { c with params := ps }

def mergeParams (c : Criteria) (ps : Params) : Criteria := { c with params := c.params.merge ps }

def whereWith (c : Criteria) (condition : Condition) (ps : Params) : Criteria :=
  (c.setWhere condition).mergeParams ps

def andWhereWith (c : Criteria) (condition : Condition) (ps : Params) : Criteria :=
  (c.andWhere condition).mergeParams ps

def setLimit (c : Criteria) (l : Limit) : Criteria := { c with limit := some l }

def setSort (c : Criteria) (s : SortOrder) : Criteria := { c with sort := some s }

def setGroup (c : Criteria) (g : String) : Criteria := { c with group := some g }

/-- Sets the condition on groups and keeps its parameters. -/
def setHaving (c : Criteria) (condition : Condition) : Criteria :=
  { c with having := some condition }

def havingWith (c : Criteria) (condition : Condition) (ps : Params) : Criteria :=
  { c.setHaving condition with havingParams := ps }

/-- All parameters of the caller; those of the condition on groups prevail. -/
def boundParams (c : Criteria) : Params := c.params.merge c.havingParams

end Criteria

end SqlStatement
