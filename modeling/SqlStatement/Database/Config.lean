import SqlStatement.Error
import SqlStatement.Json.Reader

/-!
# Settings of a database connection
-/

namespace SqlStatement

structure DatabaseConfig where
  databaseType : String := "mysql"
  /-- the schema, or the path of the file -/
  databaseName : String
  host : String := "localhost"
  port : UInt16 := 3306
  username : String := ""
  password : String := ""
  charset : String := "utf8"
  tablePrefix : String := ""
  deriving DecidableEq, Repr

namespace DatabaseConfig

/-! ## Reading -/

/-- The names of the fields in JSON, in order; the host has three. -/
def fieldNames : List (List String) :=
  [["database_type"], ["database_name"], ["host", "ip", "server"], ["port"], ["username"],
    ["password"], ["charset"], ["prefix"]]

def field? {α : Type} (read : Json.Document → Option α) (default : Option α) :
    Option Json.Document → Option α
  | none => default
  | some doc => read doc

def textField? (default : Option String) : Option Json.Document → Option String :=
  field? Json.Document.text? default

def port? (doc : Json.Document) : Option UInt16 :=
  doc.integer?.bind fun n => if 0 ≤ n ∧ n < 65536 then some (UInt16.ofNat n.toNat) else none

def ofDocument? (doc : Json.Document) : Option DatabaseConfig := do
  match ← doc.fields? fieldNames with
  | [type, name, host, port, username, password, charset, start] =>
    let databaseType ← textField? (some "mysql") type
    let databaseName ← textField? none name
    let host ← textField? (some "localhost") host
    let port ← field? port? (some 3306) port
    let username ← textField? (some "") username
    let password ← textField? (some "") password
    let charset ← textField? (some "utf8") charset
    let tablePrefix ← textField? (some "") start
    some { databaseType, databaseName, host, port, username, password, charset, tablePrefix }
  | _ => none

def ofJson (s : String) : Except Error DatabaseConfig :=
  match (Json.Document.parse? s).bind ofDocument? with
  | some config => .ok config
  | none => .error .serialization

def namedEntries? : Json.Document → Option (List (String × DatabaseConfig))
  | .object members => do
    let members ← Json.Document.namedMembers? members
    members.mapM fun (m : String × Json.Document) =>
      (ofDocument? m.2).map fun config => (m.1, config)
  | _ => none

/-- The settings under a name in a JSON text of several; of equal names the last counts. -/
def ofNamedJson (s name : String) : Except Error DatabaseConfig :=
  match (Json.Document.parse? s).bind namedEntries? with
  | none => .error .serialization
  | some entries =>
    match entries.reverse.lookup name with
    | some config => .ok config
    | none => .error (.config (.noEntry name))

/-! ## Writing -/

def memberText (name value : String) : String := Json.quoted name ++ ":" ++ value

def toJsonText (c : DatabaseConfig) : String :=
  "\x7b" ++ ",".intercalate
    [memberText "database_type" (Json.quoted c.databaseType),
      memberText "database_name" (Json.quoted c.databaseName),
      memberText "host" (Json.quoted c.host),
      memberText "port" (toString c.port.toNat),
      memberText "username" (Json.quoted c.username),
      memberText "password" (Json.quoted c.password),
      memberText "charset" (Json.quoted c.charset),
      memberText "prefix" (Json.quoted c.tablePrefix)] ++ "\x7d"

def tableName (c : DatabaseConfig) (name : String) : String := c.tablePrefix ++ name

end DatabaseConfig

end SqlStatement
