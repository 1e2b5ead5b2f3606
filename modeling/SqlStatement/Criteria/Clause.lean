import SqlStatement.Integer
import SqlStatement.Text.Blank
import SqlStatement.Text.Upper

/-!
# Limit and order clauses

A clause that says nothing is none.
-/

namespace SqlStatement

inductive Limit where
  | count (n : Int64)
  | page (limit : Int64) (offset : Option Int64)
  /-- a whole clause as text -/
  | raw (sql : String)
  deriving DecidableEq, Repr, Inhabited

/-- The limit clause. A count that is not positive sets no limit, and a blank text is no clause. -/
def Limit.clause? : Limit → Option String
  | count n => if 0 < n then some ("LIMIT " ++ Integer.write n) else none
  | page limit none => some ("LIMIT " ++ Integer.write limit)
  | page limit (some offset) =>
    some ("LIMIT " ++ Integer.write limit ++ " OFFSET " ++ Integer.write offset)
  | raw sql => if Text.isBlankText sql then none else some sql

inductive SortOrder where
  /-- a clause as text, with or without its keywords -/
  | raw (sql : String)
  | columns (cs : List (String × String))
  deriving DecidableEq, Repr, Inhabited

/-- A text that holds the keywords in any letter case is the clause, other texts follow them. -/
def SortOrder.clause? : SortOrder → Option String
  | raw sql =>
    if Text.isBlankText sql then none
    else if Text.occurs "ORDER BY" (Text.upper sql) then some sql
    else some ("ORDER BY " ++ sql)
  | columns [] => none
  | columns cs =>
    some ("ORDER BY " ++
      ",".intercalate (cs.map fun (column, direction) => column ++ " " ++ direction))

end SqlStatement
