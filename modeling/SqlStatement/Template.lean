import SqlStatement.Error
import SqlStatement.Params.Basic

/-!
# Statement texts with places for values

A value never becomes part of a statement's text. Clauses are written as a `Template`, a list of
pieces of text and of values, and filling the template puts a placeholder where each value stands
and binds the value to it.
-/

namespace SqlStatement

inductive Piece where
  | text (s : String)
  /-- a value, for which a placeholder is put -/
  | value (v : Value)
  /-- bindings of the caller that join the parameters here and leave no text -/
  | params (ps : Params)
  deriving DecidableEq, Repr

abbrev Template := List Piece

/-! ## Placing values -/

structure Placement where
  next : Nat := 0
  params : Params := {}
  deriving DecidableEq, Repr, Inhabited

namespace Placement

def placeholder (n : Nat) : String := ":dy" ++ toString n

/-- The first number from `n` on whose placeholder is not bound, if at most `tries` are. -/
def firstFree (params : Params) : Nat → Nat → Nat
  | 0, n => n
  | tries + 1, n =>
    if params.contains (.named (placeholder n)) then firstFree params tries (n + 1) else n

/-- Among the next numbers, one more than there are bindings, one is free. -/
def free (p : Placement) : Nat := firstFree p.params p.params.size p.next

def place (p : Placement) (v : Value) : String × Placement :=
  (placeholder p.free, ⟨p.free + 1, p.params.set (.named (placeholder p.free)) v⟩)

def join (p : Placement) (ps : Params) : Placement := { p with params := p.params.merge ps }

end Placement

/-! ## Templates -/

namespace Template

/-- The text with a placeholder for each value in order, and the placement afterwards. -/
def fill : Template → Placement → String × Placement
  | [], p => ("", p)
  | .text s :: rest, p =>
    let (t, q) := fill rest p
    (s ++ t, q)
  | .value v :: rest, p =>
    let (name, q) := p.place v
    let (t, r) := fill rest q
    (name ++ t, r)
  | .params ps :: rest, p => fill rest (p.join ps)

def values : Template → List Value
  | [] => []
  | .value v :: rest => v :: values rest
  | _ :: rest => values rest

def writes : Piece → Bool
  | .text s => s ≠ ""
  | .value _ => true
  | .params _ => false

def hasText (t : Template) : Bool := t.any writes

def joinWith (sep : String) : List Template → Template
  | [] => []
  | [t] => t
  | t :: ts => t ++ .text sep :: joinWith sep ts

end Template

/-! ## Compiling -/

/-- An error, and what had been written when it came up. -/
structure Failure where
  written : Template
  error : Error
  deriving DecidableEq, Repr

abbrev Compiled := Except Failure Template

namespace Compiled

def text (s : String) : Compiled := .ok [.text s]

def value (v : Value) : Compiled := .ok [.value v]

def fail (e : Error) : Compiled := .error ⟨[], e⟩

def after (t : Template) : Compiled → Compiled
  | .ok u => .ok (t ++ u)
  | .error f => .error ⟨t ++ f.written, f.error⟩

def append : Compiled → Compiled → Compiled
  | .ok t, d => after t d
  | .error f, _ => .error f

instance : Append Compiled := ⟨append⟩

/-- With a text in front, unless there is no text to put it in front of. -/
def lead (s : String) : Compiled → Compiled
  | .ok t => .ok (if t.hasText then .text s :: t else t)
  | .error f => .error f

/-- An error keeps what has been placed. -/
def run (c : Compiled) (p : Placement) : Except Error String × Placement :=
  match c with
  | .ok t => (.ok (t.fill p).1, (t.fill p).2)
  | .error f => (.error f.error, (f.written.fill p).2)

end Compiled

end SqlStatement
