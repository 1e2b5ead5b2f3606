import SqlStatement.Text.Basic

/-!
# Parameter keys

A parameter is known by a name, which starts with a colon, or by its position.
-/

namespace SqlStatement

inductive ParamKey where
  /-- a name, with its colon -/
  | named (name : String)
  | positional (n : Nat)
  deriving DecidableEq, Repr, Inhabited

namespace ParamKey

/-- The key of a name; a missing colon is put in front. -/
def ofName (name : String) : ParamKey :=
  match name.toList with
  | ':' :: _ => named name
  | _ => named (":" ++ name)

def display : ParamKey → String
  | named name => name
  | positional n => "?" ++ toString n

def le : ParamKey → ParamKey → Bool
  | named a, named b => a ≤ b
  | named _, positional _ => true
  | positional _, named _ => false
  | positional m, positional n => m ≤ n

end ParamKey

end SqlStatement
