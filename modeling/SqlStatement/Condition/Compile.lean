import SqlStatement.Condition.Basic
import SqlStatement.Condition.Key
import SqlStatement.Template

/-!
# The SQL of a condition
-/

namespace SqlStatement

/-! ## Comparisons -/

def valueList (vs : List Value) : Template := Template.joinWith "," (vs.map fun v => [.value v])

/-- Membership in a list; nothing is in an empty list. -/
def compileMembership (field : String) (op : Operator) (operand : Operand) : Compiled :=
  match operand.list? with
  | none => .fail (.invalidCondition op.text field .list)
  | some [] => .text (if op = .oneOf then "1=0" else "1=1")
  | some vs => .ok (.text (field ++ " " ++ op.text ++ " (") :: valueList vs ++ [.text ")"])

def rangeTemplate (field : String) (low high : Value) : Template :=
  [.text (field ++ " BETWEEN "), .value low, .text " AND ", .value high]

def compileRange (field : String) : Operand → Compiled
  | .range low high => .ok (rangeTemplate field low high)
  | .list [low, high] => .ok (rangeTemplate field low high)
  | .list vs => .fail (.invalidCondition Operator.between.text field (.two vs.length))
  | .scalar _ => .fail (.invalidCondition Operator.between.text field .pair)

def compileScalar (field : String) (op : Operator) : Operand → Compiled
  | .scalar v => .ok [.text (field ++ " " ++ op.text ++ " "), .value v]
  | _ => .fail (.invalidCondition op.text field .single)

def compileComparison (field : String) (op : Operator) (operand : Operand) : Compiled :=
  match op with
  | .oneOf | .noneOf => compileMembership field op operand
  | .between => compileRange field operand
  | .equal | .other _ => compileScalar field op operand

def suffixText : Option String → Template
  | none => []
  | some s => [.text (" " ++ s)]

def compileField (key : String) (operand : Operand) : Compiled :=
  let k := ConditionKey.parse key
  compileComparison k.field k.operator operand ++ (.ok (suffixText k.suffix) : Compiled)

/-! ## Terms -/

namespace Term

def compile : Term → Compiled
  | field key operand => compileField key operand
  | raw sql => .text sql
  | openGroup => .text "("
  | closeGroup => .text ")"

/-- Whether `AND` goes before the term. A key that holds ` OR ` brings a connective of its own. -/
def joined : Term → Bool
  | field key _ => !Text.occurs " OR " key
  | closeGroup => false
  | _ => true

def joinable : Term → Bool
  | openGroup => false
  | _ => true

def connective (follows : Bool) (t : Term) : Template :=
  if follows && t.joined then [.text " AND "] else []

end Term

/-- The SQL of the terms, given whether they come after one that can be joined to. -/
def compileTerms (follows : Bool) : List Term → Compiled
  | [] => .ok []
  | t :: ts => Compiled.after (t.connective follows) (t.compile ++ compileTerms t.joinable ts)

def Conditions.compile (cs : Conditions) : Compiled := compileTerms false cs.terms

def Condition.compile : Condition → Compiled
  | raw sql => .text sql
  | structured cs => cs.compile

end SqlStatement
