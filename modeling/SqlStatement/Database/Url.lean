import SqlStatement.Database.Config
import SqlStatement.Text.Basic

/-!
# Connection URLs
-/

namespace SqlStatement

namespace DatabaseConfig

/-- User name and password as they stand in a URL; without a user name there are none. -/
def credentials (c : DatabaseConfig) : String :=
  if c.username = "" then ""
  else if c.password = "" then c.username ++ "@"
  else c.username ++ ":" ++ c.password ++ "@"

def url (c : DatabaseConfig) : Except Error String :=
  let kind := Text.asciiLower c.databaseType
  if kind = "mysql" then
    .ok ("mysql://" ++ c.credentials ++ c.host ++ ":" ++ toString c.port.toNat ++ "/" ++
      c.databaseName ++ "?charset=" ++ c.charset)
  else if kind = "sqlite" then .ok ("sqlite://" ++ c.databaseName)
  else .error (.config (.unknownDatabase kind))

end DatabaseConfig

/-- The characters of a URL with three stars for what stands between the scheme and the last `@`. -/
def redactIn (cs : List Char) : List Char :=
  match Text.cutAtText? "://".toList cs with
  | none => cs
  | some (scheme, rest) =>
    match Text.afterLastIn? '@' rest with
    | none => cs
    | some host => scheme ++ "://***@".toList ++ host

def redact (url : String) : String := String.ofList (redactIn url.toList)

end SqlStatement
