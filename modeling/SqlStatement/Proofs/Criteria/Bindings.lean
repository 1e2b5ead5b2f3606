import SqlStatement.Proofs.CallerBindings

/-!
# Parameters of criteria on their own

Criteria on their own are rendered with the parameters for the statement bound from the start. Those
for the condition on groups join when the condition on rows has been written. The names placed until
then are new among the first, but the second may hold them, and then the value placed is lost.

* `Criteria.toSql_bindings` : the bindings of the caller always prevail, and all placed values are
  kept, apart from the names of the caller, just when no name placed in the condition on rows is
  bound for the condition on groups.
-/

namespace SqlStatement.Criteria

open Placement

/-- The bindings when the condition on rows has been written. -/
def rowStage (c : Criteria) (next : Nat) : Placement := (c.compileWhere.run ⟨next, c.params⟩).2

/-- The bindings when those for the condition on groups have joined. -/
def groupStage (c : Criteria) (next : Nat) : Placement := (c.rowStage next).join c.havingParams

def rowPlacements (c : Criteria) (next : Nat) : List (Nat × Value) :=
  c.compileWhere.placements ⟨next, c.params⟩

def groupPlacements (c : Criteria) (next : Nat) : List (Nat × Value) :=
  c.compileClauses.placements (c.groupStage next)

def placements (c : Criteria) (next : Nat) : List (Nat × Value) :=
  c.compile.placements ⟨next, c.params⟩

variable {c : Criteria} {next : Nat} {sql : String} {ps : Params}

theorem params_eq_of_toSql (h : (c.toSql next).1 = .ok (sql, ps)) :
    ps = (c.compile.run ⟨next, c.params⟩).2.params := by
  obtain ⟨s, -, hs⟩ := map_eq_ok h
  exact (congrArg (·.2) hs).symm

/-- The clauses are filled after the condition on rows, when the bindings for the condition on groups
have joined. -/
theorem toSql_stages (h : (c.toSql next).1 = .ok (sql, ps)) :
    ps = (c.compileClauses.run (c.groupStage next)).2.params ∧
      c.placements next = c.rowPlacements next ++ c.groupPlacements next := by
  have hps := params_eq_of_toSql h
  have hrow : ((c.compileWhere.lead " WHERE ").run ⟨next, c.params⟩).2 = c.rowStage next :=
    Compiled.run_lead_snd _ _ _
  have hrows : (c.compileWhere.lead " WHERE ").placements ⟨next, c.params⟩ =
      c.rowPlacements next :=
    Compiled.placements_lead _ _ _
  cases hw : c.compileWhere.lead " WHERE " with
  | error f =>
    have hc : c.compile = .error f := by
      unfold compile
      rw [hw]
      rfl
    unfold toSql at h
    rw [hc] at h
    cases h
  | ok w =>
    have hc : c.compile = Compiled.after w (c.compileOptions.lead " ") := by
      unfold compile
      rw [hw]
      rfl
    rw [hw] at hrow hrows
    have hfill : (w.fill ⟨next, c.params⟩).2 = c.rowStage next := hrow
    have hplaced : w.placements ⟨next, c.params⟩ = c.rowPlacements next := hrows
    constructor
    · rw [hps, hc, Compiled.run_after_snd, hfill, Compiled.run_lead_snd]
      unfold compileOptions
      rw [Compiled.run_after_snd]
      rfl
    · unfold placements
      rw [hc, Compiled.placements_after, hfill, hplaced, Compiled.placements_lead]
      unfold compileOptions
      rw [Compiled.placements_after]
      rfl

/-! ## The stages -/

theorem get?_rowStage {key : ParamKey} {b : Binding} :
    (c.rowStage next).params.get? key = some b ↔
      c.params.get? key = some b ∨
        ∃ e ∈ c.rowPlacements next, key = generated e.1 ∧ b = .value e.2 := by
  have hjoins : c.compileWhere.Joins fun ps =>
      ps.entries ⊆ (Placement.mk next c.params).params.entries :=
    joins_optional c.filter
  unfold rowStage
  rw [Compiled.run_snd, Template.get?_fill hjoins, Template.mem_map_placed]
  rfl

theorem get?_groupStage (key : ParamKey) :
    (c.groupStage next).params.get? key =
      (c.havingParams.get? key).or ((c.rowStage next).params.get? key) :=
  Params.get?_merge _ _ _

theorem get?_toSql (h : (c.toSql next).1 = .ok (sql, ps)) {key : ParamKey} {b : Binding} :
    ps.get? key = some b ↔
      (c.groupStage next).params.get? key = some b ∨
        ∃ e ∈ c.groupPlacements next, key = generated e.1 ∧ b = .value e.2 := by
  have hjoins : c.compileClauses.Joins fun ps => ps.entries ⊆ (c.groupStage next).params.entries :=
    joins_clauses c
  rw [(toSql_stages h).1, Compiled.run_snd, Template.get?_fill hjoins, Template.mem_map_placed]
  rfl

theorem rowPlacements_notMem {e : Nat × Value} (he : e ∈ c.rowPlacements next) :
    generated e.1 ∉ c.params.keys :=
  Template.placements_notMem he

theorem groupPlacements_notMem {e : Nat × Value} (he : e ∈ c.groupPlacements next) :
    generated e.1 ∉ c.params.keys ∧ generated e.1 ∉ c.havingParams.keys := by
  have h : generated e.1 ∉ (c.groupStage next).params.keys := Template.placements_notMem he
  unfold groupStage Placement.join at h
  rw [Params.mem_keys_merge, not_or] at h
  refine ⟨fun hm => h.1 ?_, h.2⟩
  obtain ⟨b, hb⟩ := Params.get?_of_mem_keys hm
  exact Params.mem_keys_of_get? (get?_rowStage.2 (Or.inl hb))

/-! ## What is bound in the end -/

/-- The bindings of the caller are kept, those for the condition on groups before the others. Every
placed value is kept under a name that the caller does not use just when the condition on rows has
been given no name that is bound for the condition on groups. -/
theorem toSql_bindings (h : (c.toSql next).1 = .ok (sql, ps)) :
    (∀ key b, (c.havingParams.get? key).or (c.params.get? key) = some b → ps.get? key = some b) ∧
      ((∀ e ∈ c.placements next, ps.get? (generated e.1) = some (.value e.2) ∧
          generated e.1 ∉ c.params.keys ∧ generated e.1 ∉ c.havingParams.keys) ↔
        ∀ e ∈ c.rowPlacements next, generated e.1 ∉ c.havingParams.keys) := by
  have hplacements := (toSql_stages h).2
  refine ⟨fun key b hb => ?_, fun hall e he => ?_, fun hrow e he => ?_⟩
  · -- what the caller has bound is there when the bindings have joined
    refine (get?_toSql h).2 (Or.inl ?_)
    rw [get?_groupStage]
    cases hh : c.havingParams.get? key with
    | some b' =>
      rw [hh, Option.some_or] at hb
      rw [Option.some_or, hb]
    | none =>
      rw [hh, Option.none_or] at hb
      rw [Option.none_or]
      exact get?_rowStage.2 (Or.inl hb)
  · rw [hplacements] at hall
    exact (hall e (List.mem_append_left _ he)).2.2
  · rw [hplacements] at he
    obtain he | he := List.mem_append.1 he
    · -- a name that is free for the condition on groups outlasts the joining
      refine ⟨(get?_toSql h).2 (Or.inl ?_), rowPlacements_notMem he, hrow e he⟩
      rw [get?_groupStage, Params.get?_eq_none_iff.2 (hrow e he), Option.none_or]
      exact get?_rowStage.2 (Or.inr ⟨e, he, rfl, rfl⟩)
    · exact ⟨(get?_toSql h).2 (Or.inr ⟨e, he, rfl, rfl⟩), groupPlacements_notMem he⟩

/-- Criteria in which the condition on rows is given the name that is bound for the condition on
groups. -/
def clashing : Criteria where
  filter := some (.structured (.ofList [.field "a" (.scalar (.int 1))]))
  having := some (.raw "x > :dy0")
  havingParams := .ofList [(.named ":dy0", .value (.int 9))]

/-- The value that the condition on rows compares with is lost: its placeholder is bound to the
value for the condition on groups. -/
theorem toSql_clashing :
    ∃ ps, (clashing.toSql 0).1 = .ok (" WHERE `a` = :dy0 HAVING x > :dy0", ps) ∧
      clashing.placements 0 = [(0, .int 1)] ∧
      ps.get? (generated 0) = some (.value (.int 9)) ∧
      generated 0 ∈ clashing.havingParams.keys :=
  ⟨.ofList [(.named ":dy0", .value (.int 9))], by decide +kernel, by decide +kernel,
    by decide +kernel, by decide +kernel⟩

/-- The same with the name bound for the statement too, so that it is passed over. -/
def apart : Criteria := { clashing with params := .ofList [(.named ":dy0", .value (.int 9))] }

theorem toSql_bindings_apart :
    ∃ ps, (apart.toSql 0).1 = .ok (" WHERE `a` = :dy1 HAVING x > :dy0", ps) ∧
      ∀ e ∈ apart.placements 0, ps.get? (generated e.1) = some (.value e.2) ∧
        generated e.1 ∉ apart.params.keys ∧ generated e.1 ∉ apart.havingParams.keys := by
  have h : (apart.toSql 0).1 = .ok (" WHERE `a` = :dy1 HAVING x > :dy0",
      .ofList [(.named ":dy0", .value (.int 9)), (.named ":dy1", .value (.int 1))]) := by
    decide +kernel
  have hrow : ∀ e ∈ apart.rowPlacements 0, generated e.1 ∉ apart.havingParams.keys := by
    decide +kernel
  exact ⟨_, h, (toSql_bindings h).2.2 hrow⟩

end SqlStatement.Criteria
