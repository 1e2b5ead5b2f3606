import SqlStatement.Params.Key

/-!
# Placeholders by position

`positional` gives a statement for drivers that know parameters by position: every placeholder
outside quotes becomes a question mark, and the keys of the placeholders are listed in order.

Quotes are single, double or backticks. A backslash protects the next character, but not between
backticks. A name starts with a colon and a letter or underscore; a colon directly after another one
starts no name.
-/

namespace SqlStatement

inductive Token where
  /-- a character outside quotes -/
  | plain (c : Char)
  /-- a quote or a character between quotes -/
  | quoted (c : Char)
  /-- a placeholder with its name, which starts with a colon -/
  | named (name : List Char)
  | mark
  deriving DecidableEq, Repr

inductive Scan where
  /-- outside quotes, with or without a colon just before -/
  | outside (afterColon : Bool)
  | inside (quote : Char)
  /-- between quotes, after a backslash -/
  | protecting (quote : Char)
  | naming (name : List Char)
  deriving DecidableEq, Repr

def isQuoteMark (c : Char) : Bool := c == '\'' || c == '"' || c == '\x60'

def startsName (c : Char) : Bool := c.isAlpha || c == '_'

def continuesName (c : Char) : Bool := c.isAlphanum || c == '_'

/-- The tokens of a character outside quotes, given the one after it, and how to go on. -/
def readOutside (afterColon : Bool) (c : Char) (next : Option Char) : List Token × Scan :=
  if isQuoteMark c then ([.quoted c], .inside c)
  else if c = '?' then ([.mark], .outside false)
  else if c = ':' then
    if !afterColon && next.any startsName then ([], .naming [':'])
    else ([.plain ':'], .outside true)
  else ([.plain c], .outside false)

def readInside (quote c : Char) : Scan :=
  if c = '\\' ∧ quote ≠ '\x60' then .protecting quote
  else if c = quote then .outside false
  else .inside quote

def tokens : Scan → List Char → List Token
  | .naming name, [] => [.named name]
  | _, [] => []
  | .outside afterColon, c :: cs =>
    (readOutside afterColon c cs.head?).1 ++ tokens (readOutside afterColon c cs.head?).2 cs
  | .inside quote, c :: cs => .quoted c :: tokens (readInside quote c) cs
  | .protecting quote, c :: cs => .quoted c :: tokens (.inside quote) cs
  | .naming name, c :: cs =>
    if continuesName c then tokens (.naming (name ++ [c])) cs
    else
      .named name :: (readOutside false c cs.head?).1 ++
        tokens (readOutside false c cs.head?).2 cs

namespace Token

def source : Token → List Char
  | plain c => [c]
  | quoted c => [c]
  | named name => name
  | mark => ['?']

/-- The characters of the token where placeholders are question marks. -/
def marked : Token → List Char
  | plain c => [c]
  | quoted c => [c]
  | named _ => ['?']
  | mark => ['?']

/-- The keys of the placeholders; question marks are numbered on from `n`. -/
def keysFrom (n : Nat) : List Token → List ParamKey
  | [] => []
  | named name :: ts => .named (String.ofList name) :: keysFrom n ts
  | mark :: ts => .positional (n + 1) :: keysFrom (n + 1) ts
  | _ :: ts => keysFrom n ts

end Token

structure Positional where
  sql : String
  order : List ParamKey
  deriving DecidableEq, Repr

/-- The statement with its placeholders by position. Question marks are numbered from one. -/
def positional (sql : String) : Positional :=
  let ts := tokens (.outside false) sql.toList
  ⟨String.ofList (ts.flatMap Token.marked), Token.keysFrom 0 ts⟩

end SqlStatement
