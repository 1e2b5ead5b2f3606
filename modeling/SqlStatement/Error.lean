import SqlStatement.Command
import SqlStatement.Params.Key

/-!
# Errors

`Error` lists the causes for which building or running a statement fails, and `Error.message` words
them.
-/

namespace SqlStatement

inductive Shape where
  | single
  | list
  | pair
  /-- two values, where a list of another length was given -/
  | two (given : Nat)
  deriving DecidableEq, Repr

def Shape.message : Shape → String
  | single => "a single value"
  | list => "a list of values"
  | pair => "a pair of values"
  | two given => "exactly 2 values, got " ++ toString given

inductive DriverFault where
  | failed (message : String)
  | cannotBind (key : ParamKey)
  | unknownAttribute (name : String)
  deriving DecidableEq, Repr

def DriverFault.message : DriverFault → String
  | failed message => message
  | cannotBind key => "cannot bind " ++ key.display
  | unknownAttribute name => "attribute " ++ name ++ " is not supported"

inductive ConfigFault where
  | noEntry (name : String)
  | unknownDatabase (kind : String)
  deriving DecidableEq, Repr

def ConfigFault.message : ConfigFault → String
  | noEntry name => "no database entry named " ++ name
  | unknownDatabase kind => "unsupported database type " ++ kind

inductive Error where
  | invalidCondition (operator field : String) (expected : Shape)
  | emptyValues (command : Command)
  /-- the expression at a place of the values is no text but of the named type -/
  | invalidExpression (command : Command) (index : Nat) (typeName : String)
  | booleanUpdate (column : String)
  | unsupportedPlaceholder (placeholder : String)
  | missingTable
  | wrongCommandForExecute
  | missingMapOption
  | unsupportedCommand (text : String)
  | driver (fault : DriverFault)
  /-- a text or a row does not hold the data asked for -/
  | serialization
  | missingConnection
  | columnNotFound (column : String)
  /-- counting a column gave no row -/
  | emptyCount (column : String)
  | config (fault : ConfigFault)
  deriving DecidableEq, Repr

namespace Error

def message : Error → String
  | invalidCondition operator field expected =>
    "Invalid condition: " ++ operator ++ " on " ++ field ++ " expects " ++ expected.message
  | emptyValues command => command.keyword ++ " requires at least one value"
  | invalidExpression command index typeName =>
    "Invalid value type for '#" ++ toString index ++ "': " ++ command.keyword ++
      " expression must be a string, got " ++ typeName
  | booleanUpdate column =>
    "Invalid value type for '" ++ column ++ "': UPDATE value must be a string or a number, got bool"
  | unsupportedPlaceholder placeholder =>
    "Unsupported placeholder '" ++ placeholder ++ "', use the :name form instead"
  | missingTable => "Table name must not be empty"
  | wrongCommandForExecute => "execute() cannot run a SELECT statement, fetch its results instead"
  | missingMapOption => "fetch_map requires a map option, either on invocation or via select_map"
  | unsupportedCommand text => "Unsupported SQL command '" ++ text ++ "'"
  | driver fault => "Driver failure: " ++ fault.message
  | serialization => "Serialization error"
  | missingConnection => "An active connection is required to prepare a statement"
  | columnNotFound column => "Column '" ++ column ++ "' not found in result set"
  | emptyCount column => "Query failed: COUNT(" ++ column ++ ") returned no row"
  | config fault => "Invalid configuration: " ++ fault.message

def isDriverFailure : Error → Bool
  | driver _ => true
  | _ => false

end Error

def Command.read (s : String) : Except Error Command :=
  match Command.parse? s with
  | some c => .ok c
  | none => .error (.unsupportedCommand s)

end SqlStatement
