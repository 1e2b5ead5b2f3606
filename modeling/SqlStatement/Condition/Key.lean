import SqlStatement.Text.Blank
import SqlStatement.Text.Upper

/-!
# Condition keys

The key of a field condition names the field, and after colons optionally the operator and a suffix:
`score:>:COLLATE utf8_bin`.
-/

namespace SqlStatement

inductive Operator where
  | equal
  | oneOf
  | noneOf
  | between
  | other (token : String)
  deriving DecidableEq, Repr, Inhabited

namespace Operator

def ofToken (token : String) : Operator :=
  if token = "" ∨ token = "=" then equal
  else if token = "IN" then oneOf
  else if token = "NOT IN" then noneOf
  else if token = "BETWEEN" then between
  else other token

def parse (s : String) : Operator := ofToken (Text.upper (Text.trim s))

def text : Operator → String
  | equal => "="
  | oneOf => "IN"
  | noneOf => "NOT IN"
  | between => "BETWEEN"
  | other token => token

end Operator

/-- The field between backticks; one that holds a backtick or a point stays as it is. -/
def quoteField (field : String) : String :=
  if Text.hasChar '\x60' field || Text.hasChar '.' field then field
  else "\x60" ++ field ++ "\x60"

structure ConditionKey where
  /-- the field, quoted -/
  field : String
  operator : Operator
  suffix : Option String
  deriving DecidableEq, Repr

/-- The parts between the colons of a key: field, operator, suffix. Further ones are left out. -/
def ConditionKey.parse (key : String) : ConditionKey :=
  match Text.split ':' key with
  | [] => ⟨quoteField "", .equal, none⟩
  | [field] => ⟨quoteField field, .equal, none⟩
  | [field, operator] => ⟨quoteField field, .parse operator, none⟩
  | field :: operator :: suffix :: _ =>
    ⟨quoteField field, .parse operator, if suffix = "" then none else some suffix⟩

end SqlStatement
