import SqlStatement.Text.Blank

/-!
# Statements that yield rows

`returnsRows` tells from a statement's text whether it yields rows or a number of affected rows.
-/

namespace SqlStatement

def rowKeywords : List String :=
  ["SELECT", "SHOW", "DESCRIBE", "DESC", "EXPLAIN", "WITH", "PRAGMA", "VALUES"]

/-- The letters with which the statement starts, after blanks and opening brackets. -/
def leadingKeyword (sql : String) : String :=
  let start := sql.toList.dropWhile fun c => Text.isBlank c || c == '('
  String.ofList ((start.takeWhile Char.isAlpha).map Char.toUpper)

def returnsRows (sql : String) : Bool :=
  rowKeywords.contains (leadingKeyword sql) || Text.occurs " RETURNING " (Text.asciiUpper sql)

end SqlStatement
