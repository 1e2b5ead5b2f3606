import SqlStatement.Text.Blank
import SqlStatement.Decimal.Positional
import SqlStatement.Decimal.Reader
import SqlStatement.Json.Basic

/-!
# Values of parameters and result cells
-/

namespace SqlStatement

inductive Value where
  | null
  | bool (b : Bool)
  | int (n : Int64)
  | float (x : Float)
  | text (s : String)
  deriving DecidableEq, Repr, Inhabited

inductive ParamType where
  | null
  | integer
  | text
  deriving DecidableEq, Repr, Inhabited

namespace Value

def isNull : Value → Bool
  | null => true
  | _ => false

def typeName : Value → String
  | null => "NULL"
  | bool _ => "BOOLEAN"
  | int _ => "BIGINT"
  | float _ => "DOUBLE"
  | text _ => "TEXT"

/-- Integers and texts of an integer bind as integers, all else but null as text. -/
def paramType : Value → ParamType
  | null => .null
  | int _ => .integer
  | text s => if (Integer.plain? s).isSome then .integer else .text
  | _ => .text

def text? : Value → Option String
  | text s => some s
  | _ => none

/-! ## Numeric views -/

/-- Truth, a whole double and a text of an integer between blanks count as integers. -/
def integer? : Value → Option Int64
  | null => none
  | bool b => some (if b then 1 else 0)
  | int n => some n
  | float x => Decimal.whole? x
  | text s => Integer.signed? (Text.trim s)

def float? : Value → Option Float
  | int n => some (Float.ofInt n.toInt)
  | float x => some x
  | text s => Decimal.read? (Text.trim s)
  | _ => none

/-- The value as an integer, a double being cut off, and zero where there is no number. -/
def toInteger (v : Value) : Int64 :=
  (v.integer?.or (v.float?.map Decimal.truncate)).getD 0

/-- The value that an integer parameter holds: null stays null. -/
def coerceInteger : Value → Value
  | null => null
  | v => int v.toInteger

/-! ## Texts -/

def display : Value → String
  | null => ""
  | bool b => if b then "1" else ""
  | int n => Integer.write n
  | float x => Decimal.write x
  | text s => s

def isQuote (c : Char) : Bool := c == '\'' || c == '"'

/-- A text without any quotes at its ends; other values stay. -/
def unquoted : Value → Value
  | text s => text (Text.strip isQuote s)
  | v => v

/-! ## JSON -/

def jsonFloat (x : Float) : Json := if Decimal.isFinite x then .float x else .null

def toJson : Value → Json
  | null => .null
  | bool b => .bool b
  | int n => .int n.toInt
  | float x => jsonFloat x
  | text s => .text s

def tagged : Value → Json
  | null => .text "Null"
  | bool b => .object [("Bool", .bool b)]
  | int n => .object [("Int", .int n.toInt)]
  | float x => .object [("Float", jsonFloat x)]
  | text s => .object [("String", .text s)]

/-- Doubles agree as numbers: a NaN with nothing, and the two zeros with each other. -/
def agrees : Value → Value → Bool
  | null, null => true
  | bool a, bool b => a == b
  | int a, int b => a == b
  | float a, float b => a == b
  | text a, text b => a == b
  | _, _ => false

end Value

end SqlStatement
