import SqlStatement.Json.Reader
import SqlStatement.Value.Basic

/-!
# Reading a value with the name of its kind

A value is read from a JSON text in the form that `Value.tagged` gives: the text `"Null"`, or an
object whose only member is named for the kind of the value. An object with the member `Null` and
the value null is accepted too.
-/

namespace SqlStatement.Value

def ofMember? (kind : String) (content : Json.Document) : Option Value :=
  match kind, content with
  | "Null", .null => some .null
  | "Bool", .bool b => some (.bool b)
  | "Int", content => (content.integer?.bind Integer.inRange?).map .int
  | "Float", content => content.double?.map .float
  | "String", content => content.text?.map .text
  | _, _ => none

/-- The value that a JSON text holds together with the name of its kind. -/
def ofTagged? (s : String) : Option Value := do
  match ← Json.Document.parse? s with
  | .text raw =>
    let kind ← Json.textOf? raw
    if kind = "Null" then some .null else none
  | .object [(name, content)] => do
    let kind ← Json.textOf? name
    ofMember? kind content
  | _ => none

end SqlStatement.Value
