import SqlStatement.Proofs.Condition.Expressions

/-!
# Conjunctions as boolean expressions

The conjunction of two conditions of which one is a text is the text of the first, `AND` and that of
the second, between brackets if both are texts. The first is never put between brackets, so that its
last alternative alone is joined with the second.

* `Condition.and_narrows` : when it is true;
* `Condition.and_widens` : a conjunction that is true where the second condition is not.
-/

namespace SqlStatement

open Term Compiled

namespace Condition

variable {p : Placement} {cs : Conditions} {a b : Condition}

/-- The expression of the second of two conditions as it stands in their conjunction: between
brackets if both are texts. -/
def placed (a b : Condition) (e : Expression (List Lexeme)) : Expression (List Lexeme) :=
  match a, b with
  | raw _, raw _ => e.grouped
  | _, _ => e

theorem run_text_and_terms {s t : String} {q : Placement} (h : cs.WellFormed p)
    (hs : (raw s).isEmpty = false) (hcs : cs.isEmpty = false)
    (ht : cs.compile.run p = (.ok t, q)) :
    ((raw s).and (structured cs)).compile.run p = (.ok (s ++ " AND " ++ t), q) := by
  have hterms : ((Conditions.ofList [.raw s]).merge cs).terms = .raw s :: cs.terms :=
    Entries.merge_eq_append cs.nodup
  obtain ⟨u, us, hcons⟩ := List.exists_cons_of_ne_nil (Conditions.isEmpty_eq_false_iff.1 hcs)
  have hu : u.joined = true := by
    cases u with
    | closeGroup => exact absurd hcons (h.balanced.ne_cons us)
    | openGroup => rfl
    | field | raw => exact h.joined _ (hcons ▸ List.mem_cons_self) rfl
  have hrest : (compileTerms true cs.terms).run p = (.ok (" AND " ++ t), q) := by
    have hfirst : (compileTerms false cs.terms).run p = (.ok t, q) := ht
    rw [hcons] at hfirst ⊢
    exact run_compileTerms_joined hu hfirst
  have hstructured : (structured cs).isEmpty = false := hcs
  rw [and_terms hs hstructured (Or.inr ⟨cs, rfl⟩)]
  show (compileTerms false ((Conditions.ofList [.raw s]).merge cs).terms).run p = _
  rw [hterms, String.append_assoc]
  exact run_compileTerms_first rfl rfl hrest

theorem run_terms_and_text {s t : String} {q : Placement} (h : cs.WellFormed p)
    (hcs : cs.isEmpty = false) (ht : (raw t).isEmpty = false)
    (hs : cs.compile.run p = (.ok s, q)) :
    ((structured cs).and (raw t)).compile.run p = (.ok (s ++ " AND " ++ t), q) := by
  have hterms : (cs.merge (Conditions.ofList [.raw t])).terms = cs.terms ++ [.raw t] := by
    show Entries.insert cs.terms (.raw t) = _
    exact Entries.insert_eq_append fun k hk => by cases hk
  obtain ⟨init, u, hinit⟩ :=
    (List.eq_nil_or_concat' cs.terms).resolve_left (Conditions.isEmpty_eq_false_iff.1 hcs)
  have hu : u.joinable = true := by
    cases u with
    | openGroup => exact absurd hinit (h.balanced.ne_concat init)
    | _ => rfl
  have hlast : (compileTerms true [.raw t]).run q = (.ok (" AND " ++ t), q) := by
    refine run_compileTerms_joined rfl ?_
    exact (run_compileTerms_first rfl rfl rfl).trans
      (Prod.ext (congrArg Except.ok String.append_empty) rfl)
  have hfirst : (compileTerms false (init ++ [u])).run p = (.ok s, q) := hinit ▸ hs
  have hstructured : (structured cs).isEmpty = false := hcs
  rw [and_terms hstructured ht (Or.inl ⟨cs, rfl⟩)]
  show (compileTerms false (cs.merge (Conditions.ofList [.raw t])).terms).run p = _
  rw [hterms, hinit, List.append_assoc, List.singleton_append, compileTerms_append,
    run_append_of_ok hfirst, hu, hlast, String.append_assoc]
  rfl

/-- The conjunction of two conditions of which one is a text. It has the text of the first, `AND`
and the text of the second, and is read with that in mind. -/
theorem WellFormed.reads_and {f g : Expression (List Lexeme)} {s t : String} {q r : Placement}
    (ha : a.WellFormed p) (hb : b.WellFormed p) (hane : a.isEmpty = false) (hbne : b.isEmpty = false)
    (htext : (∃ s, a = raw s) ∨ ∃ t, b = raw t) (hs : a.compile.run p = (.ok s, q))
    (ht : b.compile.run p = (.ok t, r)) (hf : Reads s f) (hg : Reads t g) :
    ∃ u q', (a.and b).compile.run p = (.ok u, q') ∧ Reads u (f.meet (a.placed b g)) := by
  cases a with
  | structured cs =>
    cases b with
    | structured ds => rcases htext with ⟨s, h⟩ | ⟨t, h⟩ <;> cases h
    | raw text =>
      obtain ⟨rfl, rfl⟩ : t = text ∧ r = p := by
        cases ht.symm.trans (run_text text p)
        exact ⟨rfl, rfl⟩
      exact ⟨_, q, run_terms_and_text ha hane hbne hs, hf.and hg⟩
  | raw first =>
    obtain ⟨rfl, rfl⟩ : s = first ∧ q = p := by
      cases hs.symm.trans (run_text first p)
      exact ⟨rfl, rfl⟩
    cases b with
    | structured ds => exact ⟨_, r, run_text_and_terms hb hane hbne ht, hf.and hg⟩
    | raw second =>
      obtain ⟨rfl, rfl⟩ : t = second ∧ r = q := by
        cases ht.symm.trans (run_text second q)
        exact ⟨rfl, rfl⟩
      refine ⟨s ++ " AND " ++ ("(" ++ t ++ ")"), r, ?_, hf.and hg.group⟩
      have hopening : " AND (" = " AND " ++ "(" := rfl
      rw [and_texts hane hbne, hopening]
      simp only [String.append_assoc]
      exact run_text _ r

/-- Two conditions of which one is a text, both well-formed. The first, the second and their
conjunction are each the text of one expression. The conjunction holds if an alternative of the
first but the last one does, or the last one and the first one of the second both do, or a later one
of the second; what stands between brackets is one alternative. So it is narrower than the second if
the first has no `OR` outside brackets, and narrower than the first if the second is put between
brackets or has none. -/
theorem and_narrows (ha : a.WellFormed p) (hb : b.WellFormed p) (hane : a.isEmpty = false)
    (hbne : b.isEmpty = false) (htext : (∃ s, a = raw s) ∨ ∃ t, b = raw t) :
    ∃ s t u f g h, (a.compile.run p).1 = .ok s ∧ (b.compile.run p).1 = .ok t ∧
      ((a.and b).compile.run p).1 = .ok u ∧
      (∀ e, Reads s e ↔ e = f) ∧ (∀ e, Reads t e ↔ e = g) ∧ (∀ e, Reads u e ↔ e = h) ∧
      ∀ σ, (h.holds σ = (f.conjunctions.dropLast.any (·.holds σ) ||
          (f.last.holds σ && (a.placed b g).first.holds σ) ||
          (a.placed b g).conjunctions.tail.any (·.holds σ))) ∧
        (∀ c, f = .conjunction c → h.holds σ = true → g.holds σ = true) ∧
        ∀ d, a.placed b g = .conjunction d → h.holds σ = true → f.holds σ = true := by
  obtain ⟨s, q, f, hs, hf⟩ := ha.reads_compile hane
  obtain ⟨t, r, g, ht, hg⟩ := hb.reads_compile hbne
  obtain ⟨u, q', hu, hh⟩ := ha.reads_and hb hane hbne htext hs ht hf hg
  have honly : ∀ {v e}, Reads v e → ∀ e', Reads v e' ↔ e' = e := fun he e' =>
    ⟨fun he' => he'.unique he, fun heq => heq ▸ he⟩
  have hplaced : ∀ σ, (a.placed b g).holds σ = g.holds σ := by
    intro σ
    unfold placed
    split <;> rfl
  refine ⟨s, t, u, f, g, _, congrArg Prod.fst hs, congrArg Prod.fst ht, congrArg Prod.fst hu,
    honly hf, honly hg, honly hh, fun σ => ⟨Expression.holds_meet f _, ?_, ?_⟩⟩
  · rintro c rfl hholds
    rw [← hplaced]
    exact Expression.holds_of_conjunction_meet hholds
  · intro d hd hholds
    rw [hd] at hholds
    exact Expression.holds_of_meet_conjunction hholds

/-- A text without `OR`, and a list of terms with a group that has one. -/
theorem and_narrows_group :
    let a := raw "deleted = 0"
    let b := structured (.ofList [.field "kind" (.scalar (.int 2)), .openGroup,
      .raw "vip OR paid > 9", .field "age:BETWEEN" (.range (.int 18) (.int 30)), .closeGroup])
    a.WellFormed {} ∧ b.WellFormed {} ∧ a.isEmpty = false ∧ b.isEmpty = false ∧
      ((a.and b).compile.run {}).1 =
        .ok ("deleted = 0 AND \x60kind\x60 = :dy0 AND " ++
          "(vip OR paid > 9 AND \x60age\x60 BETWEEN :dy1 AND :dy2)") ∧
      ∃ s t u f g h, (a.compile.run {}).1 = .ok s ∧ (b.compile.run {}).1 = .ok t ∧
        ((a.and b).compile.run {}).1 = .ok u ∧ Reads s f ∧ Reads t g ∧ Reads u h ∧
        ∀ σ, h.holds σ = true → g.holds σ = true := by
  intro a b
  let word (s : String) : Lexeme := .word s.toList
  let deleted : Expression (List Lexeme) :=
    .conjunction (.primary (.atom [word "deleted", word "=", word "0"]))
  let vip : Expression (List Lexeme) := .or (.conjunction (.primary (.atom [word "vip"])))
    (.primary (.atom [word "paid", word ">", word "9"]))
  have hdeleted : Reads "deleted = 0" deleted := by decide
  have hvip : Reads "vip OR paid > 9" vip := by decide
  have hage : (ConditionKey.parse "age:BETWEEN").IsWordy := {
    field := by decide
    operator := by rintro token ⟨⟩
    suffix := by rintro s ⟨⟩ }
  have ha : a.WellFormed {} := ⟨deleted, hdeleted⟩
  have hkind : (ConditionKey.parse "kind").IsWordy :=
    ConditionKey.isWordy_of_name (by decide) (by decide) (by decide)
  have hb : b.WellFormed {} := by
    refine Conditions.wellFormed_of_wordy (by decide) (by decide) (by decide) ?_ ?_ {}
    · intro key operand hmem
      have hterm : Term.field key operand ∈ [.field "kind" (.scalar (.int 2)), openGroup,
        .raw "vip OR paid > 9", .field "age:BETWEEN" (.range (.int 18) (.int 30)), closeGroup] := hmem
      obtain ⟨rfl, -⟩ | ⟨rfl, -⟩ : (key = "kind" ∧ _) ∨ key = "age:BETWEEN" ∧ _ := by
        simpa using hterm
      · exact ⟨by decide, hkind⟩
      · exact ⟨by decide, hage⟩
    · intro s hmem
      have hterm : Term.raw s ∈ [.field "kind" (.scalar (.int 2)), openGroup,
        .raw "vip OR paid > 9", .field "age:BETWEEN" (.range (.int 18) (.int 30)), closeGroup] := hmem
      obtain rfl : s = "vip OR paid > 9" := by simpa using hterm
      exact ⟨vip, hvip⟩
  have hane : a.isEmpty = false := by decide
  have hbne : b.isEmpty = false := by decide
  obtain ⟨s, t, u, f, g, h, hs, ht, hu, hf, hg, hh, hholds⟩ :=
    and_narrows ha hb hane hbne (Or.inl ⟨_, rfl⟩)
  have hsame : deleted = f := (hf deleted).1 (by cases hs; exact hdeleted)
  exact ⟨ha, hb, hane, hbne, by decide, s, t, u, f, g, h, hs, ht, hu, (hf f).2 rfl, (hg g).2 rfl,
    (hh h).2 rfl, fun σ => (hholds σ).2.1 _ hsame.symm⟩

/-- An `OR` outside brackets in the first of two texts makes their conjunction wider than the
second. -/
theorem and_widens :
    ¬ ∀ (a b : Condition) (p : Placement) (s t u : String) (f g h : Expression (List Lexeme)),
      a.WellFormed p → b.WellFormed p → a.isEmpty = false → b.isEmpty = false →
      ((∃ s, a = raw s) ∨ ∃ t, b = raw t) → (a.compile.run p).1 = .ok s →
      (b.compile.run p).1 = .ok t → ((a.and b).compile.run p).1 = .ok u →
      Reads s f → Reads t g → Reads u h →
      ∀ σ, h.holds σ = true → f.holds σ = true ∧ g.holds σ = true := by
  intro hclaim
  let atom (c : Char) : Primary (List Lexeme) := .atom [.word [c]]
  let f : Expression (List Lexeme) := .or (.conjunction (.primary (atom 'a'))) (.primary (atom 'b'))
  let g : Expression (List Lexeme) := .conjunction (.primary (atom 'c'))
  have hf : Reads "a OR b" f := by decide
  have hg : Reads "c" g := by decide
  have hh : Reads "a OR b AND (c)" (f.meet g.grouped) := by decide
  have hboth := hclaim (raw "a OR b") (raw "c") {} _ _ _ f g _ ⟨f, hf⟩ ⟨g, hg⟩ (by decide)
    (by decide) (Or.inl ⟨_, rfl⟩) rfl rfl (by decide) hf hg hh (· == [.word ['a']]) (by decide)
  revert hboth
  decide

end Condition

end SqlStatement
