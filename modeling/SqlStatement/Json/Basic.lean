/-!
# JSON values

The members of an object stand in ascending order of their names, each name once, if the object was
built by `setMember` from an empty one.
-/

namespace SqlStatement

inductive Json where
  | null
  | bool (b : Bool)
  | int (n : Int)
  | float (x : Float)
  | text (s : String)
  | list (items : List Json)
  | object (members : List (String × Json))
  deriving Repr, Inhabited

namespace Json

/-! ## Members of an object -/

/-- Sets a member in place of one of the same name, or before the first greater name. -/
def setMember (name : String) (value : Json) : List (String × Json) → List (String × Json)
  | [] => [(name, value)]
  | (n, v) :: rest =>
    if n = name then (name, value) :: rest
    else if name < n then (name, value) :: (n, v) :: rest
    else (n, v) :: setMember name value rest

def member? (name : String) (members : List (String × Json)) : Option Json := members.lookup name

theorem member?_setMember_self (name : String) (value : Json) (members : List (String × Json)) :
    member? name (setMember name value members) = some value := by
  induction members with
  | nil => simp [setMember, member?]
  | cons m rest ih =>
    obtain ⟨n, v⟩ := m
    simp only [setMember]
    split
    · simp [member?]
    · split
      · simp [member?]
      · rename_i hne _
        have hbeq : (name == n) = false := by simpa using fun e => hne e.symm
        unfold member? at ih ⊢
        rw [List.lookup_cons, hbeq]
        exact ih

/-! ## Texts -/

def hexDigit (n : Nat) : Char := "0123456789abcdef".toList.getD n '0'

def quotedChar (c : Char) : List Char :=
  match c with
  | '"' => ['\\', '"']
  | '\\' => ['\\', '\\']
  | '\n' => ['\\', 'n']
  | '\r' => ['\\', 'r']
  | '\t' => ['\\', 't']
  | '\x08' => ['\\', 'b']
  | '\x0c' => ['\\', 'f']
  | c =>
    if c.toNat < 0x20 then
      ['\\', 'u', '0', '0', hexDigit (c.toNat / 16), hexDigit (c.toNat % 16)]
    else [c]

def quoted (s : String) : String := String.ofList ('"' :: s.toList.flatMap quotedChar ++ ['"'])

end Json

end SqlStatement
