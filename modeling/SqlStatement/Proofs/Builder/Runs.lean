import SqlStatement.Builder.Setters
import SqlStatement.Proofs.CallerBindings

/-!
# Parameters over the life of a builder

A builder is changed and rendered in any order, and a rendering may fail after some values have
been placed. The number for the next placeholder never falls, so no name is given out twice.

* `Builder.Rendering`, `Builder.renderings` : the drafts that are rendered afresh in a run;
* `Builder.History` : how the renderings so far bear on the builder, kept by every step;
* `Builder.toSql_params` : the parameters of a statement are the caller's, followed by one for each
  value, under names that neither the caller nor any earlier rendering has used.
-/

namespace SqlStatement.Builder

open Placement

/-! ## Runs -/

/-- What can be done with a builder: change its draft, by a setter or in any other way, or ask for
its statement. -/
inductive Step where
  | set (x : Setter)
  | edit (f : Draft → Draft)
  | render

/-- The builder after a step, also if rendering fails. -/
def step (b : Builder) : Step → Builder
  | .set x => x.apply b
  | .edit f => b.edit f
  | .render => b.toSql.2

def run (b : Builder) (steps : List Step) : Builder := steps.foldl step b

/-- A draft that is rendered afresh, and the number at which its search for placeholders starts. -/
structure Rendering where
  draft : Draft
  next : Nat

namespace Rendering

def start (r : Rendering) : Placement := ⟨r.next, r.draft.criteria.boundParams⟩

def result (r : Rendering) : Except Error Statement := (renderDraft r.draft r.next).1

def after (r : Rendering) : Nat := (renderDraft r.draft r.next).2

/-- The numbers and values that are placed, also if rendering fails. -/
def placements (r : Rendering) : List (Nat × Value) := r.draft.compile.placements r.start

def numbers (r : Rendering) : List Nat := r.placements.map (·.1)

end Rendering

/-- The rendering that a step makes; none if the statement is there already. -/
def stepRenderings (b : Builder) : Step → List Rendering
  | .set _ => []
  | .edit _ => []
  | .render => if b.rendered.isSome then [] else [⟨b.draft, b.next⟩]

def renderings (b : Builder) : List Step → List Rendering
  | [] => []
  | st :: steps => b.stepRenderings st ++ renderings (b.step st) steps

/-! ## One rendering -/

namespace Rendering

theorem after_eq (r : Rendering) : r.after = (r.draft.compile.written.fill r.start).2.next := by
  show (r.draft.compile.run r.start).2.next = _
  rw [Compiled.run_snd]

theorem next_le_after (r : Rendering) : r.next ≤ r.after := by
  rw [after_eq]
  exact Template.next_le_fill _ r.start

theorem numbers_bounds {r : Rendering} {k : Nat} (hk : k ∈ r.numbers) :
    r.next ≤ k ∧ k < r.after := by
  obtain ⟨e, he, rfl⟩ := List.mem_map.1 hk
  rw [after_eq]
  exact Template.placements_bounds he

theorem sorted_numbers (r : Rendering) : r.numbers.Pairwise (· < ·) :=
  Template.sorted_placements _ _

theorem values_placements (r : Rendering) :
    r.placements.map (·.2) = r.draft.compile.written.values :=
  Template.map_snd_placements _ _

theorem numbers_notMem {r : Rendering} {k : Nat} (hk : k ∈ r.numbers) :
    generated k ∉ r.draft.criteria.boundParams.keys := by
  obtain ⟨e, he, rfl⟩ := List.mem_map.1 hk
  exact Template.placements_notMem he

/-- The bindings for the condition on groups join for a second time in the middle of the draft, and
change nothing there. -/
theorem entries_result {r : Rendering} {s : Statement} (h : r.result = .ok s) :
    s.params.entries =
      r.draft.criteria.boundParams.entries ++ r.placements.map Template.placed := by
  have hjoins : r.draft.compile.Joins fun ps => ps.entries ⊆ r.start.params.entries :=
    Draft.joins_draft (Params.entries_subset_merge _ _)
  have hfill := Template.entries_fill hjoins
  rw [← Compiled.run_snd] at hfill
  obtain ⟨sql, -, hs⟩ := map_eq_ok h
  rw [← hs]
  exact hfill

end Rendering

/-! ## What the renderings so far mean for the builder -/

/-- The renderings so far have used numbers below the next one, later renderings larger numbers than
earlier ones, and a statement that is there is the result of the last of them for the draft as it
is. -/
structure History (b : Builder) (rs : List Rendering) : Prop where
  below : ∀ r ∈ rs, ∀ k ∈ r.numbers, k < b.next
  increasing : rs.Pairwise fun q r => ∀ m ∈ q.numbers, ∀ k ∈ r.numbers, m < k
  current : ∀ s, b.rendered = some s →
    ∃ earlier r, rs = earlier ++ [r] ∧ r.draft = b.draft ∧ r.result = .ok s

theorem history_nil {b : Builder} (h : b.rendered = none) : History b [] := by
  refine ⟨fun r hr => absurd hr List.not_mem_nil, List.Pairwise.nil, fun s hs => ?_⟩
  rw [h] at hs
  cases hs

theorem History.edit {b : Builder} {rs : List Rendering} (h : History b rs)
    (f : Draft → Draft) : History (b.edit f) rs := by
  refine ⟨h.below, h.increasing, fun s hs => ?_⟩
  cases hs

/-- A fresh rendering takes its numbers from the next one on. -/
theorem History.render {b : Builder} {rs : List Rendering} (h : History b rs)
    (hb : b.rendered = none) : History b.render.2 (rs ++ [⟨b.draft, b.next⟩]) := by
  rw [render_eq]
  refine ⟨fun q hq k hk => ?_, ?_, fun s hs => ⟨rs, ⟨b.draft, b.next⟩, rfl, rfl, ?_⟩⟩
  · show k < (Rendering.mk b.draft b.next).after
    obtain hq | hq := List.mem_append.1 hq
    · exact Nat.lt_of_lt_of_le (h.below q hq k hk) (Rendering.next_le_after ⟨b.draft, b.next⟩)
    · rw [List.mem_singleton.1 hq] at hk
      exact (Rendering.numbers_bounds hk).2
  · rw [List.pairwise_append]
    refine ⟨h.increasing, List.pairwise_singleton _ _, fun q hq r hr m hm k hk => ?_⟩
    rw [List.mem_singleton.1 hr] at hk
    exact Nat.lt_of_lt_of_le (h.below q hq m hm) (Rendering.numbers_bounds hk).1
  · show (renderDraft b.draft b.next).1 = .ok s
    cases hres : (renderDraft b.draft b.next).1 with
    | ok t =>
      rw [hres] at hs
      cases hs
      rfl
    | error e =>
      rw [hres, hb] at hs
      cases hs

theorem History.step {b : Builder} {rs : List Rendering} (h : History b rs) (st : Step) :
    History (b.step st) (rs ++ b.stepRenderings st) := by
  cases st with
  | set x =>
    show History (x.apply b) (rs ++ [])
    rw [x.apply_eq_edit, List.append_nil]
    exact h.edit x.change
  | edit f =>
    show History (b.edit f) (rs ++ [])
    rw [List.append_nil]
    exact h.edit f
  | render =>
    show History b.toSql.2 (rs ++ if b.rendered.isSome then [] else [⟨b.draft, b.next⟩])
    cases hb : b.rendered with
    | some s =>
      rw [toSql_of_some hb, Option.isSome_some, if_pos rfl, List.append_nil]
      exact h
    | none =>
      rw [toSql_of_none hb, Option.isSome_none, if_neg Bool.false_ne_true]
      exact h.render hb

theorem History.run {b : Builder} {rs : List Rendering} (h : History b rs) (steps : List Step) :
    History (b.run steps) (rs ++ b.renderings steps) := by
  induction steps generalizing b rs with
  | nil =>
    show History b (rs ++ [])
    rw [List.append_nil]
    exact h
  | cons st steps ih =>
    show History ((b.step st).run steps)
      (rs ++ (b.stepRenderings st ++ (b.step st).renderings steps))
    rw [← List.append_assoc]
    exact ih (h.step st)

/-! ## The parameters of a statement -/

theorem run_append_render (b : Builder) (steps : List Step) :
    b.run (steps ++ [.render]) = (b.run steps).toSql.2 := by
  unfold run
  rw [List.foldl_append]
  rfl

theorem toSql_ok {b : Builder} {s : Statement} (h : b.toSql.1 = .ok s) :
    b.toSql.2.draft = b.draft ∧ b.toSql.2.rendered = some s := by
  cases hb : b.rendered with
  | some t =>
    rw [toSql_of_some hb] at h ⊢
    cases h
    exact ⟨rfl, hb⟩
  | none =>
    rw [toSql_of_none hb, render_eq] at h ⊢
    have hres : (renderDraft b.draft b.next).1 = .ok s := h
    refine ⟨rfl, ?_⟩
    show (renderDraft b.draft b.next).1.toOption.or b.rendered = some s
    rw [hres]
    rfl

/-- Whenever a builder gives a statement, after whatever changes and renderings, the parameters are
those of the caller, where the ones for the condition on groups prevail, followed by one binding for
each value of the draft, in order. The names of these have increasing numbers, and they are neither
names of the caller nor names that any earlier rendering gave out. -/
theorem toSql_params (d : Draft) (n : Nat) (steps : List Step) {s : Statement}
    (h : (run ⟨d, n, none⟩ steps).toSql.1 = .ok s) :
    ∃ earlier r, renderings ⟨d, n, none⟩ (steps ++ [.render]) = earlier ++ [r] ∧
      r.draft = (run ⟨d, n, none⟩ steps).draft ∧ r.result = .ok s ∧
      s.params.entries =
        r.draft.criteria.boundParams.entries ++ r.placements.map Template.placed ∧
      (∀ key, r.draft.criteria.boundParams.get? key =
        (r.draft.criteria.havingParams.get? key).or (r.draft.criteria.params.get? key)) ∧
      r.placements.map (·.2) = r.draft.compile.written.values ∧
      r.numbers.Pairwise (· < ·) ∧
      (∀ k ∈ r.numbers, generated k ∉ r.draft.criteria.boundParams.keys) ∧
      ∀ q ∈ earlier, ∀ m ∈ q.numbers, ∀ k ∈ r.numbers, placeholder m ≠ placeholder k := by
  have hist := (history_nil (b := ⟨d, n, none⟩) rfl).run (steps ++ [.render])
  rw [run_append_render, List.nil_append] at hist
  obtain ⟨hdraft, hrendered⟩ := toSql_ok h
  obtain ⟨earlier, r, hrs, hr, hres⟩ := hist.current s hrendered
  have hlater := hist.increasing
  rw [hrs, List.pairwise_append] at hlater
  refine ⟨earlier, r, hrs, hr.trans hdraft, hres, r.entries_result hres,
    Params.get?_merge _ _, r.values_placements, r.sorted_numbers,
    fun k hk => Rendering.numbers_notMem hk, fun q hq m hm k hk heq => ?_⟩
  have hlt := hlater.2.2 q hq r List.mem_cons_self m hm k hk
  rw [placeholder_injective heq] at hlt
  exact Nat.lt_irrefl k hlt

/-- An update that is refused at its second value, when the first has been placed. -/
def refusedUpdate : Draft where
  command := .update
  table := some "t"
  values := .ofList [.column "a" (.int 1), .column "b" (.bool true)]
  criteria :=
    { filter := some (.structured (.ofList [.field "c" (.scalar (.int 2))]))
      having := some (.structured (.ofList [.field "e:>" (.scalar (.int 3))]))
      params := .ofList [(.named ":dy1", .value (.int 4))]
      havingParams := .ofList [(.named ":dy3", .value (.int 5))] }

/-- Once the refused value is gone the numbers go on after the one that has been used, past the
names of the caller. -/
theorem toSql_params_after_refusal :
    ∃ s, (run ⟨refusedUpdate, 0, none⟩
          [.render, .set (.values (.ofList [.column "a" (.int 1)]))]).toSql.1 = .ok s ∧
      s.sql = "UPDATE t SET a = :dy2 WHERE `c` = :dy4 HAVING `e` > :dy5" ∧
      ∃ earlier r, renderings ⟨refusedUpdate, 0, none⟩
          [.render, .set (.values (.ofList [.column "a" (.int 1)])), .render] =
            earlier ++ [r] ∧
        s.params.entries =
          r.draft.criteria.boundParams.entries ++ r.placements.map Template.placed ∧
        ∀ q ∈ earlier, ∀ m ∈ q.numbers, ∀ k ∈ r.numbers, placeholder m ≠ placeholder k := by
  obtain ⟨earlier, r, hrs, -, -, hparams, -, -, -, -, hnew⟩ := toSql_params refusedUpdate 0
    [.render, .set (.values (.ofList [.column "a" (.int 1)]))] rfl
  exact ⟨_, rfl, by decide +kernel, earlier, r, hrs, hparams, hnew⟩

end SqlStatement.Builder
