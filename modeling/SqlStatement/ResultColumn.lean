import SqlStatement.Text.Blank

/-!
# Names of result columns

A database names the columns of a result after the expressions that were selected. `resultColumn`
finds the name in the text of an expression: the alias if there is one, and otherwise the expression
without `DISTINCT`, a qualified name losing its qualifiers.
-/

namespace SqlStatement

def isNameEdge (c : Char) : Bool := c == '\x60' || c == ' '

def startsAlias (cs : List Char) : Bool := (cs.take 4).map Char.toUpper == [' ', 'A', 'S', ' ']

/-- What follows the last `AS` at depth zero, where `depth` brackets are open at the start. -/
def lastAlias? : Int → List Char → Option (List Char)
  | _, [] => none
  | depth, c :: cs =>
    let next := if c = '(' then depth + 1 else if c = ')' then depth - 1 else depth
    match lastAlias? next cs with
    | some label => some label
    | none => if depth = 0 ∧ startsAlias (c :: cs) then some (cs.drop 3) else none

/-- Whether the text starts with `DISTINCT`, in any letter case, and a blank space or bracket. -/
def startsDistinct (cs : List Char) : Bool :=
  let head := (cs.take 9).map Char.toLower
  head == "distinct ".toList || head == "distinct(".toList

def isDistinctEdge (c : Char) : Bool := isNameEdge c || c == '(' || c == ')'

def withoutDistinct (cs : List Char) : List Char :=
  if startsDistinct cs then Text.trimWhile isDistinctEdge (cs.drop 8) else cs

def isPathChar (c : Char) : Bool := c == '.' || c == '_' || c == '\x60' || c.isAlphanum

/-- A qualified name without its qualifiers; other expressions stay. -/
def unqualified (cs : List Char) : List Char :=
  if cs.all isPathChar then
    match Text.afterLastIn? '.' cs with
    | some name => Text.trimWhile isNameEdge name
    | none => cs
  else cs

def resultColumn (expr : String) : String :=
  let cs := Text.trimWhile Text.isBlank expr.toList
  String.ofList <|
    match lastAlias? 0 cs with
    | some label => Text.trimWhile isNameEdge label
    | none => unqualified (withoutDistinct cs)

end SqlStatement
