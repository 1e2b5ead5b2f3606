import SqlStatement.Json.Numeral

/-!
# JSON documents

`Document.parse?` accepts a text that is one JSON value between blanks, whatever its numbers and
escapes stand for, so that parts nobody asks for are checked for their syntax only.
-/

namespace SqlStatement.Json

/-- The syntax tree of a JSON text. A text holds the characters between its quotes. -/
inductive Document where
  | null
  | bool (b : Bool)
  | number (n : Numeral)
  | text (raw : List Char)
  | list (items : List Document)
  | object (members : List (List Char × Document))
  deriving Repr, Inhabited

/-- Reads something off the front of a text and gives it with the rest. -/
abbrev Parser (α : Type) := List Char → Option (α × List Char)

def isSpace (c : Char) : Bool := c == ' ' || c == '\n' || c == '\t' || c == '\r'

def skipSpace (cs : List Char) : List Char := cs.dropWhile isSpace

/-! ## Texts and numbers -/

def hexValue? (c : Char) : Option Nat :=
  if c.isDigit then some (c.toNat - '0'.toNat)
  else if 'a' ≤ c ∧ c ≤ 'f' then some (c.toNat - 'a'.toNat + 10)
  else if 'A' ≤ c ∧ c ≤ 'F' then some (c.toNat - 'A'.toNat + 10)
  else none

def isEscapeLetter (c : Char) : Bool := "\"\\/bfnrt".toList.contains c

def rawText : Parser (List Char)
  | '"' :: cs => some ([], cs)
  | '\\' :: 'u' :: a :: b :: c :: d :: cs =>
    if [a, b, c, d].all fun x => (hexValue? x).isSome then
      (rawText cs).map fun (raw, rest) => ('\\' :: 'u' :: a :: b :: c :: d :: raw, rest)
    else none
  | '\\' :: e :: cs =>
    if isEscapeLetter e then (rawText cs).map fun (raw, rest) => ('\\' :: e :: raw, rest) else none
  | c :: cs =>
    if c = '\\' ∨ c.toNat < 0x20 then none else (rawText cs).map fun (raw, rest) => (c :: raw, rest)
  | [] => none

def digitRun : Parser (List Char) := fun cs =>
  match cs.takeWhile Char.isDigit with
  | [] => none
  | ds => some (ds, cs.dropWhile Char.isDigit)

/-- The digits before the point: a single zero, or digits that do not start with one. -/
def wholeDigits : Parser (List Char)
  | '0' :: cs => some (['0'], cs)
  | cs => digitRun cs

def fractionPart : Parser (Option (List Char))
  | '.' :: cs => (digitRun cs).map fun (ds, rest) => (some ds, rest)
  | cs => some (none, cs)

def signedExponent : Parser (Option (Bool × List Char))
  | '-' :: cs => (digitRun cs).map fun (ds, rest) => (some (true, ds), rest)
  | '+' :: cs => (digitRun cs).map fun (ds, rest) => (some (false, ds), rest)
  | cs => (digitRun cs).map fun (ds, rest) => (some (false, ds), rest)

def exponentPart : Parser (Option (Bool × List Char))
  | 'e' :: cs => signedExponent cs
  | 'E' :: cs => signedExponent cs
  | cs => some (none, cs)

/-- A number, given whether a minus sign has been read. -/
def unsignedNumeral (negative : Bool) : Parser Numeral := fun cs => do
  let (whole, cs) ← wholeDigits cs
  let (fraction, cs) ← fractionPart cs
  let (exponent, cs) ← exponentPart cs
  some (⟨negative, whole, fraction, exponent⟩, cs)

def numeral : Parser Numeral
  | '-' :: cs => unsignedNumeral true cs
  | cs => unsignedNumeral false cs

/-! ## Values -/

mutual

/-- A value with blanks in front. The first argument bounds the depth of the calls. -/
def value : Nat → Parser Document
  | 0, _ => none
  | fuel + 1, cs =>
    match skipSpace cs with
    | 'n' :: 'u' :: 'l' :: 'l' :: rest => some (.null, rest)
    | 't' :: 'r' :: 'u' :: 'e' :: rest => some (.bool true, rest)
    | 'f' :: 'a' :: 'l' :: 's' :: 'e' :: rest => some (.bool false, rest)
    | '"' :: rest => (rawText rest).map fun (raw, rest) => (.text raw, rest)
    | '[' :: rest =>
      match skipSpace rest with
      | ']' :: rest => some (.list [], rest)
      | _ => (items fuel rest).map fun (xs, rest) => (.list xs, rest)
    | '{' :: rest =>
      match skipSpace rest with
      | '}' :: rest => some (.object [], rest)
      | _ => (members fuel rest).map fun (ms, rest) => (.object ms, rest)
    | rest => (numeral rest).map fun (n, rest) => (.number n, rest)

def items : Nat → Parser (List Document)
  | 0, _ => none
  | fuel + 1, cs => do
    let (x, rest) ← value fuel cs
    match skipSpace rest with
    | ',' :: rest => (items fuel rest).map fun (xs, rest) => (x :: xs, rest)
    | ']' :: rest => some ([x], rest)
    | _ => none

def members : Nat → Parser (List (List Char × Document))
  | 0, _ => none
  | fuel + 1, cs =>
    match skipSpace cs with
    | '"' :: rest => do
      let (name, rest) ← rawText rest
      match skipSpace rest with
      | ':' :: rest => do
        let (x, rest) ← value fuel rest
        match skipSpace rest with
        | ',' :: rest => (members fuel rest).map fun (ms, rest) => ((name, x) :: ms, rest)
        | '}' :: rest => some ([(name, x)], rest)
        | _ => none
      | _ => none
    | _ => none

end

/-- The tree of a text that is one JSON value between blanks. Two calls per character are enough. -/
def Document.parse? (s : String) : Option Document :=
  let cs := s.toList
  match value (2 * cs.length + 2) cs with
  | some (doc, rest) => if (skipSpace rest).isEmpty then some doc else none
  | none => none

end SqlStatement.Json
