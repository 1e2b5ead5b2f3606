/-!
# Boolean expressions

An expression is made of atoms with `AND`, `OR` and brackets. `AND` binds tighter than `OR`: an
expression is a disjunction of conjunctions, and what a conjunction is made of is an atom or an
expression between brackets.

* `Expression.holds_meet` : when two expressions with `AND` between them hold;
* `parse_eq_some_iff` : what is read is what was written, so that no list of symbols is that of two
  expressions.
-/

namespace SqlStatement

inductive Symbol (α : Type) where
  | atom (a : α)
  | conj
  | disj
  | opening
  | closing
  deriving DecidableEq, Repr

mutual

/-- An atom, or an expression between brackets. -/
inductive Primary (α : Type) where
  | atom (a : α)
  | group (e : Expression α)

/-- Atoms and groups with `AND` between them. -/
inductive Conjunction (α : Type) where
  | primary (x : Primary α)
  | and (c : Conjunction α) (x : Primary α)

/-- Conjunctions with `OR` between them. -/
inductive Expression (α : Type) where
  | conjunction (c : Conjunction α)
  | or (e : Expression α) (c : Conjunction α)

end

variable {α : Type}

mutual

def Primary.holds (σ : α → Bool) : Primary α → Bool
  | .atom a => σ a
  | .group e => e.holds σ

def Conjunction.holds (σ : α → Bool) : Conjunction α → Bool
  | .primary x => x.holds σ
  | .and c x => c.holds σ && x.holds σ

def Expression.holds (σ : α → Bool) : Expression α → Bool
  | .conjunction c => c.holds σ
  | .or e c => e.holds σ || c.holds σ

end

mutual

def Primary.symbols : Primary α → List (Symbol α)
  | .atom a => [.atom a]
  | .group e => .opening :: (e.symbols ++ [.closing])

def Conjunction.symbols : Conjunction α → List (Symbol α)
  | .primary x => x.symbols
  | .and c x => c.symbols ++ .conj :: x.symbols

def Expression.symbols : Expression α → List (Symbol α)
  | .conjunction c => c.symbols
  | .or e c => e.symbols ++ .disj :: c.symbols

end

/-- One conjunction after the other. -/
def Conjunction.both (c : Conjunction α) : Conjunction α → Conjunction α
  | primary x => and c x
  | and d x => and (c.both d) x

namespace Expression

/-- The conjunctions of which one has to hold, in order. -/
def conjunctions : Expression α → List (Conjunction α)
  | conjunction c => [c]
  | or e c => e.conjunctions ++ [c]

def first : Expression α → Conjunction α
  | conjunction c => c
  | or e _ => e.first

def last : Expression α → Conjunction α
  | conjunction c => c
  | or _ c => c

/-- The expression that is read where `AND` is put between two. Only the last conjunction of the
first is joined, and only with the first one of the second. -/
def meet : Expression α → Expression α → Expression α
  | conjunction c, conjunction d => conjunction (c.both d)
  | or e c, conjunction d => or e (c.both d)
  | e, or f d => or (e.meet f) d

def grouped (e : Expression α) : Expression α := conjunction (.primary (.group e))

end Expression

/-! ## Expressions with `AND` between them -/

variable {σ : α → Bool}

theorem Conjunction.symbols_both (c : Conjunction α) :
    ∀ d : Conjunction α, (c.both d).symbols = c.symbols ++ .conj :: d.symbols
  | primary _ => rfl
  | and d x => by
    show (c.both d).symbols ++ .conj :: x.symbols = c.symbols ++ .conj :: (d.symbols ++ _)
    rw [symbols_both c d, List.append_assoc]
    rfl

theorem Conjunction.holds_both (c : Conjunction α) :
    ∀ d : Conjunction α, (c.both d).holds σ = (c.holds σ && d.holds σ)
  | primary _ => rfl
  | and d x => by
    show ((c.both d).holds σ && x.holds σ) = (c.holds σ && (d.holds σ && x.holds σ))
    rw [holds_both c d, Bool.and_assoc]

namespace Expression

theorem meet_or (e f : Expression α) (d : Conjunction α) : e.meet (or f d) = or (e.meet f) d := by
  cases e <;> rfl

theorem symbols_meet (e : Expression α) :
    ∀ f : Expression α, (e.meet f).symbols = e.symbols ++ .conj :: f.symbols
  | conjunction d => by
    cases e with
    | conjunction c => exact c.symbols_both d
    | or e c =>
      show e.symbols ++ .disj :: (c.both d).symbols = e.symbols ++ .disj :: c.symbols ++ _
      rw [Conjunction.symbols_both, List.append_assoc]
      rfl
  | or f d => by
    rw [meet_or]
    show (e.meet f).symbols ++ .disj :: d.symbols = e.symbols ++ .conj :: (f.symbols ++ _)
    rw [symbols_meet e f, List.append_assoc]
    rfl

theorem conjunctions_ne_nil : ∀ e : Expression α, e.conjunctions ≠ []
  | conjunction _ => List.cons_ne_nil _ _
  | or e _ => List.append_ne_nil_of_left_ne_nil (conjunctions_ne_nil e) _

theorem holds_conjunctions : ∀ e : Expression α, e.holds σ = e.conjunctions.any (·.holds σ)
  | conjunction c => (Bool.or_false _).symm
  | or e c => by
    show (e.holds σ || c.holds σ) = (e.conjunctions ++ [c]).any (·.holds σ)
    rw [List.any_append, holds_conjunctions e, List.any_cons, List.any_nil, Bool.or_false]

/-- Two expressions with `AND` between them hold if a conjunction of the first but the last does, or
the last of the first and the first of the second both do, or a later one of the second. -/
theorem holds_meet (e : Expression α) : ∀ f : Expression α, (e.meet f).holds σ =
    (e.conjunctions.dropLast.any (·.holds σ) || (e.last.holds σ && f.first.holds σ) ||
      f.conjunctions.tail.any (·.holds σ))
  | conjunction d => by
    cases e with
    | conjunction c =>
      show (c.both d).holds σ = (false || (c.holds σ && d.holds σ) || false)
      rw [Conjunction.holds_both, Bool.false_or, Bool.or_false]
    | or e c =>
      show (e.holds σ || (c.both d).holds σ) =
        ((e.conjunctions ++ [c]).dropLast.any (·.holds σ) || (c.holds σ && d.holds σ) || false)
      rw [Conjunction.holds_both, List.dropLast_concat, holds_conjunctions, Bool.or_false]
  | or f d => by
    rw [meet_or]
    show ((e.meet f).holds σ || d.holds σ) =
      (_ || _ || (f.conjunctions ++ [d]).tail.any (·.holds σ))
    rw [holds_meet e f, List.tail_append_of_ne_nil (conjunctions_ne_nil f), List.any_append,
      List.any_cons, List.any_nil, Bool.or_false, Bool.or_assoc]
    rfl

/-- An expression that goes on with `AND` and a conjunction is narrower. -/
theorem holds_of_meet_conjunction {e : Expression α} {d : Conjunction α}
    (h : (e.meet (conjunction d)).holds σ = true) : e.holds σ = true := by
  cases e with
  | conjunction c =>
    have hboth : (c.both d).holds σ = true := h
    rw [Conjunction.holds_both, Bool.and_eq_true] at hboth
    exact hboth.1
  | or e c =>
    have hboth : (e.holds σ || (c.both d).holds σ) = true := h
    rw [Conjunction.holds_both, Bool.or_eq_true, Bool.and_eq_true] at hboth
    show (e.holds σ || c.holds σ) = true
    rw [Bool.or_eq_true]
    exact hboth.imp_right And.left

/-- An expression after a conjunction and `AND` is narrower. -/
theorem holds_of_conjunction_meet {c : Conjunction α} :
    ∀ {f : Expression α}, (meet (conjunction c) f).holds σ = true → f.holds σ = true
  | conjunction d, h => by
    have hboth : (c.both d).holds σ = true := h
    rw [Conjunction.holds_both, Bool.and_eq_true] at hboth
    exact hboth.2
  | or f d, h => by
    have hmeet : ((meet (conjunction c) f).holds σ || d.holds σ) = true := h
    rw [Bool.or_eq_true] at hmeet
    show (f.holds σ || d.holds σ) = true
    rw [Bool.or_eq_true]
    exact hmeet.imp_left holds_of_conjunction_meet

end Expression

/-! ## From symbols to expressions -/

def Expression.after (ors : Option (Expression α)) (c : Conjunction α) : Expression α :=
  ors.elim (.conjunction c) (.or · c)

/-- What has been read of an expression where an atom or a group comes next: the conjunctions before
the last `OR`, and the one that has begun since. -/
structure Level (α : Type) where
  ors : Option (Expression α) := none
  ands : Option (Conjunction α) := none

def Level.extend (l : Level α) (c : Conjunction α) : Conjunction α := l.ands.elim c (·.both c)

def Level.symbols (l : Level α) : List (Symbol α) :=
  l.ors.elim [] (·.symbols ++ [.disj]) ++ l.ands.elim [] (·.symbols ++ [.conj])

theorem Expression.symbols_after (ors : Option (Expression α)) (c : Conjunction α) :
    (Expression.after ors c).symbols = ors.elim [] (·.symbols ++ [.disj]) ++ c.symbols := by
  cases ors with
  | none => rfl
  | some e => exact List.append_cons e.symbols .disj c.symbols

theorem Level.symbols_extend (l : Level α) (x : Primary α) :
    (Expression.after l.ors (l.extend (.primary x))).symbols = l.symbols ++ x.symbols := by
  obtain ⟨ors, ands⟩ := l
  rw [Expression.symbols_after]
  unfold Level.symbols
  rw [List.append_assoc]
  cases ands with
  | none => rfl
  | some c =>
    refine congrArg _ ((Conjunction.symbols_both c (.primary x)).trans ?_)
    exact List.append_cons c.symbols .conj x.symbols

/-- What has been read of an expression, with the levels outside its open brackets. -/
inductive Parsing (α : Type) where
  /-- an atom or an opening bracket comes next -/
  | wants (l : Level α) (outer : List (Level α))
  /-- a connective or a closing bracket comes next, or the end -/
  | has (ors : Option (Expression α)) (c : Conjunction α) (outer : List (Level α))

namespace Parsing

def step : Parsing α → Symbol α → Option (Parsing α)
  | wants l outer, .atom a => some (has l.ors (l.extend (.primary (.atom a))) outer)
  | wants l outer, .opening => some (wants {} (l :: outer))
  | has ors c outer, .conj => some (wants ⟨ors, some c⟩ outer)
  | has ors c outer, .disj => some (wants ⟨some (.after ors c), none⟩ outer)
  | has ors c (l :: outer), .closing =>
    some (has l.ors (l.extend (.primary (.group (.after ors c)))) outer)
  | _, _ => none

def run (st : Parsing α) (us : List (Symbol α)) : Option (Parsing α) := us.foldlM step st

def result : Parsing α → Option (Expression α)
  | has ors c [] => some (.after ors c)
  | _ => none

end Parsing

def parse (us : List (Symbol α)) : Option (Expression α) :=
  ((Parsing.wants {} []).run us).bind Parsing.result

namespace Parsing

variable {st st' : Parsing α} {us vs : List (Symbol α)}

theorem run_cons (st : Parsing α) (u : Symbol α) (us : List (Symbol α)) :
    st.run (u :: us) = (st.step u).bind (·.run us) := List.foldlM_cons

theorem run_append_of_some (h : st.run us = some st') (vs : List (Symbol α)) :
    st.run (us ++ vs) = st'.run vs := by
  unfold run at h ⊢
  rw [List.foldlM_append, h]
  rfl

/-! ### What was written is read -/

mutual

theorem run_primary : ∀ (x : Primary α) (l : Level α) (outer : List (Level α)),
    (wants l outer).run x.symbols = some (has l.ors (l.extend (.primary x)) outer)
  | .atom _, _, _ => rfl
  | .group e, l, outer => by
    obtain ⟨ors, c, hrun, he⟩ := run_expression e {} (l :: outer)
    show (wants {} (l :: outer)).run (e.symbols ++ [.closing]) = _
    rw [run_append_of_some hrun, ← he rfl]
    rfl

theorem run_conjunction : ∀ (c : Conjunction α) (l : Level α) (outer : List (Level α)),
    (wants l outer).run c.symbols = some (has l.ors (l.extend c) outer)
  | .primary x, l, outer => run_primary x l outer
  | .and c x, l, outer => by
    show (wants l outer).run (c.symbols ++ .conj :: x.symbols) = _
    rw [run_append_of_some (run_conjunction c l outer)]
    show (wants ⟨l.ors, some (l.extend c)⟩ outer).run x.symbols = _
    rw [run_primary x]
    obtain ⟨ors, _ | b⟩ := l <;> rfl

/-- An expression is read to its end, also where a conjunction has begun before it. -/
theorem run_expression : ∀ (e : Expression α) (l : Level α) (outer : List (Level α)),
    ∃ ors c, (wants l outer).run e.symbols = some (has ors c outer) ∧
      (l = {} → Expression.after ors c = e)
  | .conjunction c, l, outer =>
    ⟨l.ors, l.extend c, run_conjunction c l outer, by rintro rfl; rfl⟩
  | .or e c, l, outer => by
    obtain ⟨ors, d, hrun, he⟩ := run_expression e l outer
    refine ⟨some (.after ors d), c, ?_, fun hl => congrArg (Expression.or · c) (he hl)⟩
    show (wants l outer).run (e.symbols ++ .disj :: c.symbols) = _
    rw [run_append_of_some hrun]
    exact run_conjunction c ⟨some (.after ors d), none⟩ outer

end

/-! ### Operands in their place -/

def outer : Parsing α → List (Level α)
  | wants _ outer => outer
  | has _ _ outer => outer

def follows : Parsing α → Bool
  | wants _ _ => false
  | has _ _ _ => true

theorem run_joined (st : Parsing α) : ∃ l, ∀ us : List (Symbol α),
    st.run ((if st.follows then [.conj] else []) ++ us) = (wants l st.outer).run us := by
  cases st with
  | wants l outer => exact ⟨l, fun us => rfl⟩
  | has ors c outer => exact ⟨⟨ors, some c⟩, fun us => rfl⟩

theorem run_entry (st : Parsing α) (e : Expression α) : ∃ st' : Parsing α,
    (∀ vs, st.run ((if st.follows then [.conj] else []) ++ (e.symbols ++ vs)) = st'.run vs) ∧
      st'.follows = true ∧ st'.outer = st.outer := by
  obtain ⟨l, hl⟩ := run_joined st
  obtain ⟨ors, c, hrun, -⟩ := run_expression e l st.outer
  refine ⟨has ors c st.outer, fun vs => ?_, rfl, rfl⟩
  rw [hl, run_append_of_some hrun]

/-! ### What is read was written -/

def outerSymbols : List (Level α) → List (Symbol α)
  | [] => []
  | l :: outer => outerSymbols outer ++ (l.symbols ++ [.opening])

def symbols : Parsing α → List (Symbol α)
  | wants l outer => outerSymbols outer ++ l.symbols
  | has ors c outer => outerSymbols outer ++ (Expression.after ors c).symbols

theorem symbols_step {u : Symbol α} (h : st.step u = some st') :
    st'.symbols = st.symbols ++ [u] := by
  cases st with
  | wants l outer =>
    cases u with
    | atom a =>
      obtain rfl := Option.some.inj h
      show outerSymbols outer ++ _ = outerSymbols outer ++ l.symbols ++ [.atom a]
      rw [Level.symbols_extend, List.append_assoc]
      rfl
    | opening =>
      obtain rfl := Option.some.inj h
      show outerSymbols outer ++ (l.symbols ++ [.opening]) ++ [] = _
      rw [List.append_nil, ← List.append_assoc]
      rfl
    | _ => cases h
  | has ors c outer =>
    cases u with
    | conj =>
      obtain rfl := Option.some.inj h
      show outerSymbols outer ++ (_ ++ (c.symbols ++ [.conj])) = outerSymbols outer ++ _ ++ _
      rw [Expression.symbols_after, List.append_assoc, List.append_assoc]
    | disj =>
      obtain rfl := Option.some.inj h
      show outerSymbols outer ++ ((_ ++ [.disj]) ++ []) = outerSymbols outer ++ _ ++ _
      rw [List.append_nil, List.append_assoc]
    | closing =>
      cases outer with
      | nil => cases h
      | cons l outer =>
        obtain rfl := Option.some.inj h
        show outerSymbols outer ++ _ =
          outerSymbols outer ++ (l.symbols ++ [.opening]) ++ _ ++ [.closing]
        rw [Level.symbols_extend]
        simp [Primary.symbols]
    | _ => cases h

theorem symbols_run (h : st.run us = some st') : st'.symbols = st.symbols ++ us := by
  induction us generalizing st with
  | nil =>
    obtain rfl := Option.some.inj h
    exact (List.append_nil _).symm
  | cons u us ih =>
    rw [run_cons] at h
    obtain ⟨st₁, hstep, hrun⟩ := Option.bind_eq_some_iff.1 h
    rw [ih hrun, symbols_step hstep, List.append_assoc]
    rfl

end Parsing

/-- What is read is what was written. -/
theorem parse_eq_some_iff {us : List (Symbol α)} {e : Expression α} :
    parse us = some e ↔ e.symbols = us := by
  constructor
  · intro h
    obtain ⟨st, hrun, hresult⟩ := Option.bind_eq_some_iff.1 h
    rw [← List.nil_append us]
    have hsymbols := Parsing.symbols_run hrun
    cases st with
    | wants l outer => cases hresult
    | has ors c outer =>
      cases outer with
      | nil =>
        obtain rfl := Option.some.inj hresult
        exact hsymbols
      | cons l outer => cases hresult
  · rintro rfl
    obtain ⟨ors, c, hrun, he⟩ := Parsing.run_expression e {} []
    unfold parse
    rw [hrun, ← he rfl]
    rfl

end SqlStatement
