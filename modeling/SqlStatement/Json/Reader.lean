import SqlStatement.Json.Document

/-!
# Reading data from JSON documents

Scalars are read with no conversion from another kind, but for integers read as doubles.
-/

namespace SqlStatement.Json

/-! ## Escapes -/

def hexNumber (cs : List Char) : Nat := cs.foldl (fun n c => 16 * n + (hexValue? c).getD 0) 0

def escapeLetter (c : Char) : Char :=
  match c with
  | 'b' => '\x08'
  | 'f' => '\x0c'
  | 'n' => '\n'
  | 'r' => '\r'
  | 't' => '\t'
  | c => c

def isSurrogate (n : Nat) : Bool := 0xD800 ≤ n && n ≤ 0xDFFF

def joinSurrogates? (high low : Nat) : Option Char :=
  if 0xD800 ≤ high ∧ high ≤ 0xDBFF ∧ 0xDC00 ≤ low ∧ low ≤ 0xDFFF then
    some (Char.ofNat (0x10000 + (high - 0xD800) * 0x400 + (low - 0xDC00)))
  else none

/-- The text that characters between quotes stand for; half a surrogate pair gives none. -/
def unescape? : List Char → Option (List Char)
  | [] => some []
  | '\\' :: 'u' :: a :: b :: c :: d :: '\\' :: 'u' :: e :: f :: g :: h :: rest =>
    let first := hexNumber [a, b, c, d]
    if isSurrogate first then do
      let pair ← joinSurrogates? first (hexNumber [e, f, g, h])
      (unescape? rest).map (pair :: ·)
    else (unescape? ('\\' :: 'u' :: e :: f :: g :: h :: rest)).map (Char.ofNat first :: ·)
  | '\\' :: 'u' :: a :: b :: c :: d :: rest =>
    let n := hexNumber [a, b, c, d]
    if isSurrogate n then none else (unescape? rest).map (Char.ofNat n :: ·)
  | '\\' :: c :: rest => (unescape? rest).map (escapeLetter c :: ·)
  | c :: rest => (unescape? rest).map (c :: ·)

def textOf? (raw : List Char) : Option String := (unescape? raw).map String.ofList

namespace Document

/-! ## Scalars -/

def text? : Document → Option String
  | .text raw => textOf? raw
  | _ => none

def integer? : Document → Option Int
  | .number n =>
    match n.number? with
    | some (.int i) => some i
    | _ => none
  | _ => none

def double? : Document → Option Float
  | .number n =>
    match n.number? with
    | some (.int i) => some (Float.ofInt i)
    | some (.float x) => some x
    | none => none
  | _ => none

def nullable? {α : Type} (read : Document → Option α) : Document → Option (Option α)
  | .null => some none
  | doc => (read doc).map some

/-! ## Whole documents -/

mutual

/-- The document as a value, if nested in fewer than `depth` levels; members stay as they stand. -/
def toJson? : Nat → Document → Option Json
  | _, .null => some .null
  | _, .bool b => some (.bool b)
  | _, .number n =>
    n.number?.map fun
      | .int i => .int i
      | .float x => .float x
  | _, .text raw => (textOf? raw).map .text
  | depth, .list items =>
    if depth ≤ 1 then none else (toJsonList? (depth - 1) items).map .list
  | depth, .object members =>
    if depth ≤ 1 then none else (toJsonMembers? (depth - 1) members).map .object

def toJsonList? : Nat → List Document → Option (List Json)
  | _, [] => some []
  | depth, x :: xs => do
    let v ← toJson? depth x
    (toJsonList? depth xs).map (v :: ·)

def toJsonMembers? : Nat → List (List Char × Document) → Option (List (String × Json))
  | _, [] => some []
  | depth, (name, x) :: ms => do
    let name ← textOf? name
    let v ← toJson? depth x
    (toJsonMembers? depth ms).map ((name, v) :: ·)

end

/-! ## Records -/

def namedMembers? : List (List Char × Document) → Option (List (String × Document))
  | [] => some []
  | (name, x) :: ms => do
    let name ← textOf? name
    (namedMembers? ms).map ((name, x) :: ·)

/-- The member under one of the names; none in the outer sense if there are several. -/
def uniqueMember? (names : List String) (members : List (String × Document)) :
    Option (Option Document) :=
  match members.filter fun m => names.contains m.1 with
  | [] => some none
  | [m] => some (some m.2)
  | _ => none

/-- What is given for each field of a record under any of its names; other members are ignored. -/
def fields? (names : List (List String)) : Document → Option (List (Option Document))
  | .object members => do
    let members ← namedMembers? members
    names.mapM fun ns => uniqueMember? ns members
  | .list items =>
    if items.length ≤ names.length then
      some (items.map some ++ List.replicate (names.length - items.length) none)
    else none
  | _ => none

end Document

end SqlStatement.Json
