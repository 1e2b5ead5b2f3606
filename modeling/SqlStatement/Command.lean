import SqlStatement.Text.Blank
import SqlStatement.Text.Upper

/-!
# Statement commands
-/

namespace SqlStatement

inductive Command where
  | select
  | insert
  | update
  | delete
  deriving DecidableEq, Repr, Inhabited

namespace Command

def keyword : Command → String
  | select => "SELECT"
  | insert => "INSERT"
  | update => "UPDATE"
  | delete => "DELETE"

def parse? (s : String) : Option Command :=
  [select, insert, update, delete].find? fun c => c.keyword == Text.upper (Text.trim s)

end Command

end SqlStatement
