import SqlStatement.Condition.Compile
import SqlStatement.Criteria.Basic

/-!
# The clauses of criteria
-/

namespace SqlStatement

def compileOptional : Option Condition → Compiled
  | none => .ok []
  | some condition => if condition.isEmpty then .ok [] else condition.compile

def clauseTemplate : Option String → Template
  | none => []
  | some s => [.text s]

namespace Criteria

def compileWhere (c : Criteria) : Compiled := compileOptional c.filter

/-- The condition on groups, after its parameters have joined those of the statement. -/
def compileHaving (c : Criteria) : Compiled :=
  Compiled.after [.params c.havingParams] (compileOptional c.having)

def groupClause? (c : Criteria) : Option String :=
  c.group.bind fun g => if Text.isBlankText g then none else some ("GROUP BY " ++ g)

/-- The clauses other than the condition on rows, given the condition on groups. -/
def clauses (c : Criteria) (having : Template) : Template :=
  Template.joinWith " " ([clauseTemplate c.groupClause?, having,
    clauseTemplate (c.sort.bind SortOrder.clause?),
    clauseTemplate (c.limit.bind Limit.clause?)].filter Template.hasText)

def compileClauses (c : Criteria) : Compiled :=
  ((compileOptional c.having).lead "HAVING ").map c.clauses

def compileOptions (c : Criteria) : Compiled :=
  Compiled.after [.params c.havingParams] c.compileClauses

def compile (c : Criteria) : Compiled := c.compileWhere.lead " WHERE " ++ c.compileOptions.lead " "

/-- The text of all clauses with the parameters. The search for placeholders starts at `next` and
leaves out the names that the caller has bound for the statement. -/
def toSql (c : Criteria) (next : Nat) : Except Error (String × Params) × Nat :=
  let (result, p) := c.compile.run ⟨next, c.params⟩
  (result.map fun sql => (sql, p.params), p.next)

end Criteria

end SqlStatement
