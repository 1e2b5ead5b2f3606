import SqlStatement.Proofs.Condition.Terms

/-!
# Connectives before comparisons

A comparison after another term follows `AND`, unless its key holds ` OR `. Then nothing is put in
between, and a connective stands there if the field of the key begins with one.

* `Connects` : texts that begin with `AND` or `OR`;
* `Conditions.compile_connects` : what stands before a comparison.
-/

namespace SqlStatement

/-- After spaces the text begins with `AND` or `OR` and a space. -/
def Connects (s : String) : Prop :=
  "AND ".toList <+: s.toList.dropWhile (· = ' ') ∨ "OR ".toList <+: s.toList.dropWhile (· = ' ')

instance (s : String) : Decidable (Connects s) := inferInstanceAs (Decidable (_ ∨ _))

theorem Connects.append {s : String} (h : Connects s) (t : String) : Connects (s ++ t) := by
  have hextend : ∀ word : List Char, word ≠ [] → word <+: s.toList.dropWhile (· = ' ') →
      word <+: (s ++ t).toList.dropWhile (· = ' ') := by
    intro word hword hs
    have hrest : (s.toList.dropWhile (· = ' ')).isEmpty = false := by
      rw [List.isEmpty_eq_false_iff]
      rintro hnil
      rw [hnil, List.prefix_nil] at hs
      exact hword hs
    rw [String.toList_append, List.dropWhile_append, hrest, if_neg Bool.false_ne_true]
    exact hs.trans (List.prefix_append _ _)
  exact h.imp (hextend _ (by decide)) (hextend _ (by decide))

/-! ## Splitting a run -/

namespace Compiled

variable {c d : Compiled} {p q : Placement} {s : String}

theorem after_append (t : Template) (c d : Compiled) : after t c ++ d = after t (c ++ d) := by
  cases c with
  | error f => rfl
  | ok u =>
    cases d with
    | error f =>
      exact congrArg (fun w => (.error ⟨w, f.error⟩ : Compiled)) (List.append_assoc t u f.written)
    | ok v => exact congrArg Except.ok (List.append_assoc t u v)

theorem append_assoc (c d e : Compiled) : c ++ d ++ e = c ++ (d ++ e) := by
  cases c with
  | error f => rfl
  | ok t => exact after_append t d e

theorem append_nil (c : Compiled) : c ++ (.ok [] : Compiled) = c := by
  cases c with
  | error f => rfl
  | ok t => exact congrArg Except.ok (List.append_nil t)

theorem run_append_eq_ok (h : (c ++ d).run p = (.ok s, q)) : ∃ s₁ r s₂,
    c.run p = (.ok s₁, r) ∧ d.run r = (.ok s₂, q) ∧ s = s₁ ++ s₂ := by
  rcases hc : c.run p with ⟨e | s₁, r⟩
  · rw [run_append_of_error hc] at h
    cases h
  · rw [run_append_of_ok hc] at h
    rcases hd : d.run r with ⟨e | s₂, q'⟩
    · rw [hd] at h
      cases h
    · rw [hd] at h
      cases h
      exact ⟨s₁, r, s₂, rfl, hd, rfl⟩

end Compiled

open Compiled

theorem compileTerms_append (follows : Bool) (before : List Term) (t : Term) (after : List Term) :
    compileTerms follows (before ++ t :: after) =
      compileTerms follows (before ++ [t]) ++ compileTerms t.joinable after := by
  induction before generalizing follows with
  | nil =>
    show Compiled.after _ (t.compile ++ _) = Compiled.after _ (t.compile ++ .ok []) ++ _
    rw [append_nil, after_append]
  | cons u before ih =>
    show Compiled.after _ (u.compile ++ compileTerms u.joinable (before ++ t :: after)) =
      Compiled.after _ (u.compile ++ compileTerms u.joinable (before ++ [t])) ++ _
    rw [ih, after_append, append_assoc]

theorem Term.separator_field {prev : Term} (hprev : prev ≠ .openGroup) (key : String)
    (operand : Operand) :
    prev.separator (.field key operand) = if Text.occurs " OR " key then "" else " AND " := by
  cases prev with
  | openGroup => exact absurd rfl hprev
  | _ => rfl

theorem ConditionKey.field_append (k : ConditionKey) {names : List String} (h : names ≠ []) :
    ∃ rest, k.sql names = k.field ++ rest := by
  have hcomparison : ∃ rest, k.comparison names = k.field ++ rest := by
    unfold ConditionKey.comparison
    split
    · exact absurd rfl h
    · exact absurd rfl h
    all_goals
      simp only [String.append_assoc]
      exact ⟨_, rfl⟩
  obtain ⟨rest, hrest⟩ := hcomparison
  unfold ConditionKey.sql
  rw [hrest]
  cases k.suffix with
  | none => exact ⟨rest, rfl⟩
  | some suffix => exact ⟨rest ++ (" " ++ suffix), String.append_assoc⟩

theorem field_append_of_run {key : String} {operand : Operand} {p q : Placement} {own : String}
    (h : (compileField key operand).run p = (.ok own, q)) (hvalues : operand.values ≠ []) :
    ∃ rest, own = (ConditionKey.parse key).field ++ rest := by
  have hnames : (p.placeAll operand.values).1 ≠ [] := by
    obtain ⟨v, vs, hvs⟩ := List.exists_cons_of_ne_nil hvalues
    rw [hvs, Placement.placeAll_cons]
    exact List.cons_ne_nil _ _
  rw [run_compileField] at h
  split_ifs at h with hfits
  · cases h
    exact (ConditionKey.parse key).field_append hnames
  · cases h

/-! ## What stands before a comparison -/

namespace Conditions

/-- A condition that compiles, up to a term that is no opening bracket and from the comparison after
it on. The text goes on with `AND` and the text of the comparison, or with that alone if its key
holds ` OR `. -/
theorem run_split {cs : Conditions} {p q : Placement} {sql : String} {before after : List Term}
    {prev : Term} {key : String} {operand : Operand} (hrun : cs.compile.run p = (.ok sql, q))
    (hterms : cs.terms = before ++ prev :: .field key operand :: after)
    (hprev : prev ≠ .openGroup) :
    ∃ head r own r' rest, (compileTerms false (before ++ [prev])).run p = (.ok head, r) ∧
      (compileField key operand).run r = (.ok own, r') ∧
      sql = head ++ ((if Text.occurs " OR " key then "" else " AND ") ++ (own ++ rest)) := by
  unfold Conditions.compile at hrun
  rw [hterms, compileTerms_append] at hrun
  obtain ⟨head, r, tail, hhead, htail, rfl⟩ := run_append_eq_ok hrun
  rw [compileTerms, run_after, Term.fill_connective, Term.separator_field hprev] at htail
  rcases hfield : ((Term.field key operand).compile ++
    compileTerms (Term.field key operand).joinable after).run r with ⟨e | s, q'⟩
  · rw [hfield] at htail
    cases htail
  · obtain ⟨own, r', rest, hown, -, rfl⟩ := run_append_eq_ok hfield
    rw [hfield] at htail
    cases htail
    exact ⟨head, r, own, r', rest, hhead, hown, rfl⟩

/-- Where a condition compiles, nothing but a connective stands between a comparison and the term
before it, unless that one opens a group. The text from the end of the term before on begins with
`AND` if the key does not hold ` OR `. If it does, nothing is put in between, and the text begins
with the connective of the key's field if there is one and the comparison has a value. -/
theorem compile_connects {cs : Conditions} {p q : Placement} {sql : String}
    {before after : List Term} {prev : Term} {key : String} {operand : Operand}
    (hrun : cs.compile.run p = (.ok sql, q))
    (hterms : cs.terms = before ++ prev :: .field key operand :: after)
    (hprev : prev ≠ .openGroup) :
    ∃ head r own r' rest, (compileTerms false (before ++ [prev])).run p = (.ok head, r) ∧
      (compileField key operand).run r = (.ok own, r') ∧
      let tail := (if Text.occurs " OR " key then "" else " AND ") ++ (own ++ rest)
      sql = head ++ tail ∧
        (Text.occurs " OR " key = false → Connects tail) ∧
        (Connects (ConditionKey.parse key).field → operand.values ≠ [] → Connects tail) := by
  obtain ⟨head, r, own, r', rest, hhead, hown, hsql⟩ := run_split hrun hterms hprev
  have hand : Text.occurs " OR " key = false →
      Connects ((if Text.occurs " OR " key then "" else " AND ") ++ (own ++ rest)) := by
    intro hor
    rw [hor]
    exact Connects.append (by decide) (own ++ rest)
  refine ⟨head, r, own, r', rest, hhead, hown, hsql, hand, fun hfield hvalues => ?_⟩
  cases hor : Text.occurs " OR " key with
  | false =>
    rw [← hor]
    exact hand hor
  | true =>
    obtain ⟨more, rfl⟩ := field_append_of_run hown hvalues
    rw [if_pos rfl, String.empty_append, String.append_assoc]
    exact hfield.append (more ++ rest)

/-- A key that brings its connective. -/
theorem compile_connects_or :
    let cs := Conditions.ofList [.field "status" (.scalar (.int 1)),
      .field " OR \x60status\x60" (.scalar (.int 2))]
    (cs.compile.run {}).1 = .ok "\x60status\x60 = :dy0 OR \x60status\x60 = :dy1" ∧
      ∃ head tail, "\x60status\x60 = :dy0 OR \x60status\x60 = :dy1" = head ++ tail ∧
        ((compileTerms false [.field "status" (.scalar (.int 1))]).run {}).1 = .ok head ∧
        Connects tail := by
  intro cs
  have hcompile : (cs.compile.run {}).1 = .ok "\x60status\x60 = :dy0 OR \x60status\x60 = :dy1" := by
    decide
  have hterms : cs.terms = [] ++ .field "status" (.scalar (.int 1)) ::
      .field " OR \x60status\x60" (.scalar (.int 2)) :: [] := by
    decide
  obtain ⟨head, r, own, r', rest, hhead, -, hsql, -, hor⟩ :=
    compile_connects (p := {}) (Prod.ext hcompile rfl) hterms (by decide)
  exact ⟨hcompile, head, _, hsql, congrArg Prod.fst hhead, hor (by decide) (by decide)⟩

/-- A key that holds ` OR ` further on brings no connective. -/
theorem compile_unconnected :
    ¬ ∀ (cs : Conditions) (p q : Placement) (sql : String) (before after : List Term) (prev : Term)
      (key : String) (operand : Operand), cs.compile.run p = (.ok sql, q) →
      cs.terms = before ++ prev :: .field key operand :: after → prev ≠ .openGroup →
      ∃ head r tail, (compileTerms false (before ++ [prev])).run p = (.ok head, r) ∧
        sql = head ++ tail ∧ Connects tail := by
  intro h
  have hcompile : ((Conditions.ofList [.field "a" (.scalar (.int 1)),
      .field "x OR y" (.scalar (.int 2))]).compile.run {}).1 =
        .ok ("\x60a\x60 = :dy0" ++ "\x60x OR y\x60 = :dy1") := by
    decide
  have hfirst : ((compileTerms false [.field "a" (.scalar (.int 1))]).run {}).1 =
      .ok "\x60a\x60 = :dy0" := by
    decide
  obtain ⟨head, r, tail, hhead, hsql, hconnects⟩ := h _ {} _ _ [] [] (.field "a" (.scalar (.int 1)))
    "x OR y" (.scalar (.int 2)) (Prod.ext hcompile rfl) (by decide) (by decide)
  have heq : Except.ok "\x60a\x60 = :dy0" = Except.ok (ε := Error) head :=
    hfirst.symm.trans (congrArg Prod.fst hhead)
  cases heq
  rw [← (String.append_right_inj _).1 hsql] at hconnects
  revert hconnects
  decide

end Conditions

end SqlStatement
