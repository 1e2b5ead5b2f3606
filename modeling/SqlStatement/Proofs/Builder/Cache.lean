import Mathlib.Data.List.Induction
import SqlStatement.Builder.Run
import SqlStatement.Proofs.Builder.Instances

/-!
# What a builder keeps

A builder is changed, rendered, run and asked for counts in any order. What it keeps is the statement
of its draft as it is, rendered from the number at which the search for placeholders started then.

* `Builder.Use`, `Builder.life` : what can be done with a builder, and the builder after all that;
* `Builder.Kept` : the rendering that a kept statement comes from, kept by every use;
* `Builder.life_cached` : what comes out of the builder, from what it keeps and afresh.
-/

namespace SqlStatement.Builder

/-! ## Uses of a builder -/

/-- What can be done with a builder. Beside the setters there may be any other change of the draft.
Whatever needs a connection may find the driver in any state. -/
inductive Use where
  | set (x : Setter)
  | edit (f : Draft → Draft)
  | toSql
  | sqlText
  | renderedParams
  | build
  | execute (c : ConnectionId) (driver : Driver)
  | countColumn (c : ConnectionId) (driver : Driver) (column : String)
  | count (c : ConnectionId) (driver : Driver)
  | checkExists (c : ConnectionId) (driver : Driver)

namespace Use

def reads : Use → Bool
  | set _ => false
  | edit _ => false
  | _ => true

/-- The builder afterwards. Counting and checking work on a copy. -/
def apply (b : Builder) : Use → Builder
  | set x => x.apply b
  | edit f => b.edit f
  | toSql => b.toSql.2
  | sqlText => b.sqlText.2
  | renderedParams => b.renderedParams.2
  | build => b.build.2
  | execute c driver => (b.execute c driver).2.1
  | countColumn _ _ _ => b
  | count _ _ => b
  | checkExists _ _ => b

end Use

def life (b : Builder) (uses : List Use) : Builder := uses.foldl Use.apply b

theorem life_cons (b : Builder) (u : Use) (uses : List Use) :
    b.life (u :: uses) = (u.apply b).life uses := rfl

theorem life_append (b : Builder) (uses more : List Use) :
    b.life (uses ++ more) = (b.life uses).life more :=
  List.foldl_append ..

/-! ## One use -/

variable {b : Builder} {s : Statement} {e : Error} {u : Use} {uses : List Use}

theorem use_snd_fst {α : Type} (b : Builder) (c : ConnectionId) (driver : Driver)
    (f : Query → Driver → Outcome α) : (b.use c driver f).2.1 = b.toSql.2 := by
  unfold use buildWith build
  rcases b.toSql with ⟨e | s, b'⟩
  · rfl
  · rfl

theorem apply_of_reads (b : Builder) (hu : u.reads) : u.apply b = b ∨ u.apply b = b.toSql.2 := by
  rcases u with x | f | _ | _ | _ | _ | ⟨c, driver⟩ | ⟨c, driver, column⟩ | ⟨c, driver⟩ | ⟨c, driver⟩
  · cases hu
  · cases hu
  · exact Or.inr rfl
  · exact Or.inr rfl
  · exact Or.inr rfl
  · exact Or.inr rfl
  · show (b.execute c driver).2.1 = b ∨ (b.execute c driver).2.1 = b.toSql.2
    unfold execute
    by_cases hselect : b.draft.command = .select
    · rw [if_pos hselect]
      exact Or.inl rfl
    · rw [if_neg hselect]
      exact Or.inr (use_snd_fst b c driver Query.execute)
  · exact Or.inl rfl
  · exact Or.inl rfl
  · exact Or.inl rfl

theorem apply_of_rendered (hs : b.rendered = some s) (hu : u.reads) : u.apply b = b := by
  rcases apply_of_reads b hu with h | h
  · exact h
  · rw [h, toSql_of_some hs]

/-- A rendering that fails stores nothing and changes nothing but the number for the next
placeholder. -/
theorem toSql_error (he : b.toSql.1 = .error e) :
    b.rendered = none ∧ ∃ m, b.next ≤ m ∧ b.toSql = (.error e, { b with next := m }) := by
  rcases hb : b.rendered with _ | s
  · have hle := Rendering.next_le_after ⟨b.draft, b.next⟩
    rw [toSql_of_none hb, render_eq] at he ⊢
    have hres : (renderDraft b.draft b.next).1 = .error e := he
    refine ⟨rfl, (renderDraft b.draft b.next).2, hle, ?_⟩
    rw [hres, hb]
    rfl
  · rw [toSql_of_some hb] at he
    cases he

/-! ## Until the next change -/

theorem life_of_rendered (hs : b.rendered = some s) (huses : ∀ u ∈ uses, u.reads) :
    b.life uses = b := by
  induction uses with
  | nil => rfl
  | cons u uses ih =>
    rw [life_cons, apply_of_rendered hs (huses u List.mem_cons_self)]
    exact ih fun v hv => huses v (List.mem_cons_of_mem u hv)

/-- Rendering again gives the same: a statement has been kept, and an error does not depend on the
number for the next placeholder. -/
theorem toSql_toSql (b : Builder) : b.toSql.2.toSql.1 = b.toSql.1 := by
  rcases hres : b.toSql.1 with e | s
  · obtain ⟨hb, m, -, hm⟩ := toSql_error hres
    rw [hm]
    rw [toSql_of_none hb, render_eq] at hres
    have hagain : (⟨b.draft, m, b.rendered⟩ : Builder).rendered = none := hb
    show (toSql ⟨b.draft, m, b.rendered⟩).1 = .error e
    rw [toSql_of_none hagain, render_eq]
    exact renderDraft_error hres m
  · have hkept := (toSql_ok hres).2
    rw [toSql_of_some hkept]

theorem toSql_life (b : Builder) (huses : ∀ u ∈ uses, u.reads) :
    (b.life uses).toSql.1 = b.toSql.1 := by
  induction uses generalizing b with
  | nil => rfl
  | cons u uses ih =>
    have hrest := ih (u.apply b) fun v hv => huses v (List.mem_cons_of_mem u hv)
    rw [life_cons, hrest]
    rcases apply_of_reads b (huses u List.mem_cons_self) with h | h
    · rw [h]
    · rw [h, toSql_toSql]

/-! ## What is kept -/

theorem render_of_rendered (hb : b.rendered = none) (hs : b.render.2.rendered = some s) :
    render ⟨b.draft, b.next, none⟩ = (.ok s, b.render.2) := by
  have hself : (⟨b.draft, b.next, none⟩ : Builder) = b := by rw [← hb]
  rw [hself]
  rw [render_eq] at hs ⊢
  rcases hres : (renderDraft b.draft b.next).1 with e | t
  · rw [hres, hb] at hs
    cases hs
  · rw [hres] at hs
    cases hs
    rfl

/-- A statement that is kept comes from a rendering among the uses, and nothing has been changed
since. -/
def Kept (b₀ : Builder) (uses : List Use) (b : Builder) : Prop :=
  ∀ s, b.rendered = some s → ∃ before u after, uses = before ++ u :: after ∧ u.reads ∧
    (∀ v ∈ after, v.reads) ∧ (b₀.life before).draft = b.draft ∧
    (b₀.life before).rendered = none ∧ render ⟨b.draft, (b₀.life before).next, none⟩ = (.ok s, b)

theorem Kept.snoc {b₀ : Builder} (h : Kept b₀ uses (b₀.life uses)) (u : Use) :
    Kept b₀ (uses ++ [u]) (u.apply (b₀.life uses)) := by
  intro s hs
  by_cases hu : u.reads
  · -- a statement that was there already is older than the use, any other is rendered by it
    rcases hb : (b₀.life uses).rendered with _ | t
    · have hrender : u.apply (b₀.life uses) = (b₀.life uses).toSql.2 := by
        rcases apply_of_reads (b₀.life uses) hu with h' | h'
        · rw [h', hb] at hs
          cases hs
        · exact h'
      rw [hrender] at hs ⊢
      rw [toSql_of_none hb] at hs ⊢
      have hdraft : (b₀.life uses).render.2.draft = (b₀.life uses).draft := by rw [render_eq]
      refine ⟨uses, u, [], rfl, hu, by simp, hdraft.symm, hb, ?_⟩
      rw [hdraft]
      exact render_of_rendered hb hs
    · rw [apply_of_rendered hb hu] at hs ⊢
      obtain ⟨before, v, after, rfl, hv, hafter, hrest⟩ := h s hs
      refine ⟨before, v, after ++ [u], by simp, hv, ?_, hrest⟩
      intro w hw
      rcases List.mem_append.1 hw with hw | hw
      · exact hafter w hw
      · rw [List.mem_singleton.1 hw]
        exact hu
  · cases u with
    | set x =>
      have hset : (x.apply (b₀.life uses)).rendered = some s := hs
      rw [x.apply_eq_edit] at hset
      cases hset
    | edit f => cases hs
    | _ => exact absurd rfl hu

theorem kept_life {b₀ : Builder} (h : b₀.rendered = none) (uses : List Use) :
    Kept b₀ uses (b₀.life uses) := by
  induction uses using List.reverseRecOn with
  | nil =>
    intro s hs
    have hnone : b₀.rendered = some s := hs
    rw [h] at hnone
    cases hnone
  | append_singleton uses u ih =>
    rw [life_append]
    exact ih.snoc u

/-- Whatever has been done with a builder:

* a statement that it keeps was rendered by one of the uses, since which nothing has been changed.
  Rendered afresh from the number at which the search for placeholders started then, the draft as it
  is gives the same statement, text, parameters, query and builder;
* until the next change every rendering has the same result, and once one has succeeded the builder
  stays as it is, with the number for the next placeholder;
* a rendering that fails changes nothing but this number, and no statement is kept. -/
theorem life_cached (d : Draft) (n : Nat) (uses : List Use) :
    let b := life ⟨d, n, none⟩ uses
    (∀ s, b.rendered = some s → ∃ before u after, uses = before ++ u :: after ∧ u.reads ∧
      (∀ v ∈ after, v.reads) ∧
        let start := life ⟨d, n, none⟩ before
        let fresh : Builder := ⟨b.draft, start.next, none⟩
        start.draft = b.draft ∧ start.rendered = none ∧ b.toSql = (.ok s, b) ∧
          b.toSql = fresh.toSql ∧ b.sqlText = fresh.sqlText ∧
          b.renderedParams = fresh.renderedParams ∧ b.build = fresh.build) ∧
      (∀ between, (∀ u ∈ between, u.reads) → (b.life between).toSql.1 = b.toSql.1 ∧
        ∀ s, b.toSql.1 = .ok s → (b.toSql.2.life between).toSql.2 = b.toSql.2) ∧
      ∀ e, b.toSql.1 = .error e → b.rendered = none ∧ ∃ m, b.next ≤ m ∧
        let failed := { b with next := m }
        b.toSql = (.error e, failed) ∧ b.sqlText = (.error e, failed) ∧
          b.renderedParams = (.error e, failed) ∧ b.build = (.error e, failed) ∧
          ∀ c driver, b.draft.command ≠ .select →
            b.execute c driver = (.error e, failed, driver) := by
  intro b
  refine ⟨?_, ?_, ?_⟩
  · intro s hs
    obtain ⟨before, u, after, huses, hu, hafter, hdraft, hnone, hrender⟩ :=
      kept_life rfl uses s hs
    have hcached : b.toSql = (.ok s, b) := toSql_of_some hs
    have hfresh : b.toSql = toSql ⟨b.draft, (life ⟨d, n, none⟩ before).next, none⟩ := by
      rw [hcached, toSql_of_none rfl]
      exact hrender.symm
    refine ⟨before, u, after, huses, hu, hafter, hdraft, hnone, hcached, hfresh, ?_, ?_, ?_⟩
    · unfold sqlText
      rw [hfresh]
    · unfold renderedParams
      rw [hfresh]
    · unfold build
      rw [hfresh]
  · intro between hreads
    refine ⟨toSql_life b hreads, fun s hs => ?_⟩
    have hkept := (toSql_ok hs).2
    rw [life_of_rendered hkept hreads, toSql_of_some hkept]
  · intro e he
    obtain ⟨hnone, m, hle, hfailed⟩ := toSql_error he
    refine ⟨hnone, m, hle, hfailed, ?_, ?_, ?_, ?_⟩
    · unfold sqlText
      rw [hfailed]
      rfl
    · unfold renderedParams
      rw [hfailed]
      rfl
    · unfold build
      rw [hfailed]
      rfl
    · intro c driver hcommand
      unfold execute use buildWith build
      rw [if_neg hcommand, hfailed]
      rfl

/-- Two renderings that fail, with nothing in between, use up placeholders twice. -/
theorem life_refused_twice :
    ¬ ∀ (d : Draft) (n : Nat) (uses : List Use),
      (life ⟨d, n, none⟩ uses).toSql.2.toSql.2.next = (life ⟨d, n, none⟩ uses).toSql.2.next := by
  intro h
  have hnext := h {} 0
    [.set (.table (.plain "t")),
      .set (.values (.ofList [.column "a" (.int 1), .column "b" (.bool true)])), .set .update]
  revert hnext
  decide +kernel

end SqlStatement.Builder
