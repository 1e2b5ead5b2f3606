import SqlStatement.Text.Blank

/-!
# How rows are collected into a map
-/

namespace SqlStatement

inductive MapFields where
  | single (column : String)
  | many (columns : List String)
  | all
  deriving DecidableEq, Repr, Inhabited

/-- The fields that a text names: a star between blanks is the whole row. -/
def MapFields.ofText (s : String) : MapFields := if Text.trim s = "*" then all else single s

structure MapOption where
  key : String
  /-- whether an entry collects the values of all its rows -/
  asList : Bool
  fields : MapFields
  deriving DecidableEq, Repr, Inhabited

/-- The key column without the brackets that ask for lists, and whether they were there. -/
def splitListMark (key : String) : String × Bool :=
  match Text.dropSuffix? "[]" (Text.trim key) with
  | some column => (Text.trimEnd column, true)
  | none => (Text.trim key, false)

def MapOption.ofKey (key : String) (fields : MapFields) : MapOption :=
  ⟨(splitListMark key).1, (splitListMark key).2, fields⟩

end SqlStatement
