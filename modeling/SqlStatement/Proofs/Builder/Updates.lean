import SqlStatement.Proofs.Builder.Assignments

/-!
# Updates, assignment by assignment

Each assignment of an update gives one item of what is set, or it is refused. Values are placed in
the joins, then in the items, then in the condition on rows and at last in the one on groups, with
one counter.

* `Sets`, `UpdateRefuses` : the item of an assignment, and which assignments are refused;
* `UpdateParts`, `Draft.UpdatesBy` : the parts of a statement that updates;
* `Builder.toSql_update` : the statement with its parts in order, or the error.
-/

namespace SqlStatement

open Placement

/-! ## One assignment -/

/-- The item of an assignment: null is written out, any other value is placed without the quotes
around it, and an expression stands as it is. -/
inductive Sets : Assignment → Template.Part → Prop
  | null (name : String) : Sets (.column name .null) ⟨name ++ " = NULL", []⟩
  | value (name : String) {v : Value} (n : Nat) (hnull : v ≠ .null) (hbool : ∀ b, v ≠ .bool b) :
    Sets (.column name v) ⟨name ++ " = " ++ placeholder n, [(n, v.unquoted)]⟩
  | expr (sql : String) : Sets (.expr (.text sql)) ⟨sql, []⟩

/-- An assignment that an update refuses at a place of the values, and the error: a truth value for
a column, or an expression that is no text. -/
inductive UpdateRefuses (index : Nat) : Assignment → Error → Prop
  | bool (name : String) (b : Bool) :
    UpdateRefuses index (.column name (.bool b)) (.booleanUpdate name)
  | noText {v : Value} (h : ∀ s, v ≠ .text s) :
    UpdateRefuses index (.expr v) (.invalidExpression .update index v.typeName)

def Assignment.RefusedByUpdate (a : Assignment) : Prop := ∃ index e, UpdateRefuses index a e

theorem Assignment.RefusedByUpdate.at {a : Assignment} (h : a.RefusedByUpdate) (index : Nat) :
    ∃ e, UpdateRefuses index a e := by
  obtain ⟨_, _, ha⟩ := h
  cases ha with
  | bool name b => exact ⟨_, .bool name b⟩
  | noText hv => exact ⟨_, .noText hv⟩

theorem updateAssignment_of_refuses {index : Nat} {a : Assignment} {e : Error}
    (h : UpdateRefuses index a e) : updateAssignment index a = .error ⟨[], e⟩ := by
  cases h with
  | bool => rfl
  | @noText v hv =>
    rcases v with _ | b | n | x | s
    · rfl
    · rfl
    · rfl
    · rfl
    · exact absurd rfl (hv s)

theorem updateAssignment_cases (index : Nat) (a : Assignment) :
    (∃ e, UpdateRefuses index a e) ∨
      ∃ t, updateAssignment index a = .ok t ∧ ∀ p, Sets a (t.part p) := by
  have hvalue (name : String) {v : Value} (hnull : v ≠ .null) (hbool : ∀ b, v ≠ .bool b)
      (p : Placement) :
      Sets (.column name v) (Template.part p [.text (name ++ " = "), .value v.unquoted]) := by
    rw [Template.part_text_value]
    exact .value name p.free hnull hbool
  rcases a with ⟨name, v⟩ | v
  · rcases v with _ | b | n | x | s
    · exact Or.inr ⟨_, rfl, fun p => by rw [Template.part_text]; exact .null name⟩
    · exact Or.inl ⟨_, .bool name b⟩
    · exact Or.inr ⟨_, rfl, hvalue name (by simp) (by simp)⟩
    · exact Or.inr ⟨_, rfl, hvalue name (by simp) (by simp)⟩
    · exact Or.inr ⟨_, rfl, hvalue name (by simp) (by simp)⟩
  · by_cases hv : ∃ sql, v = .text sql
    · obtain ⟨sql, rfl⟩ := hv
      exact Or.inr ⟨_, rfl, fun p => by rw [Template.part_text]; exact .expr sql⟩
    · exact Or.inl ⟨_, .noText (not_exists.1 hv)⟩

theorem Assignment.refusedByUpdate_iff {a : Assignment} :
    a.RefusedByUpdate ↔ (updateAssignment 0 a).toOption = none := by
  constructor
  · intro h
    obtain ⟨e, he⟩ := h.at 0
    rw [updateAssignment_of_refuses he]
    rfl
  · intro h
    obtain ⟨e, he⟩ | ⟨t, ht, -⟩ := updateAssignment_cases 0 a
    · exact ⟨0, e, he⟩
    · rw [ht] at h
      cases h

instance : DecidablePred Assignment.RefusedByUpdate :=
  fun _ => decidable_of_iff _ Assignment.refusedByUpdate_iff.symm

/-! ## All assignments -/

def updateAssignments (index : Nat) (as : List Assignment) : List Compiled :=
  (as.zipIdx index).map fun (a, i) => updateAssignment i a

theorem updateAssignments_ok : ∀ {as : List Assignment} (_ : ∀ a ∈ as, ¬ a.RefusedByUpdate)
    (index : Nat), ∃ ts : List Template, updateAssignments index as = ts.map .ok ∧
      ∀ p, List.Forall₂ Sets as (Template.parts p ts)
  | [], _, _ => ⟨[], rfl, fun _ => .nil⟩
  | a :: as, h, index => by
    obtain ⟨ts, hts, hitems⟩ :=
      updateAssignments_ok (fun b hb => h b (List.mem_cons_of_mem a hb)) (index + 1)
    obtain ⟨e, he⟩ | ⟨t, ht, hitem⟩ := updateAssignment_cases index a
    · exact absurd ⟨index, e, he⟩ (h a List.mem_cons_self)
    · refine ⟨t :: ts, ?_, fun p => .cons (hitem p) (hitems (t.fill p).2)⟩
      rw [List.map_cons, ← ht, ← hts]
      rfl

theorem compileAssignments_ok {as : List Assignment} (h : ∀ a ∈ as, ¬ a.RefusedByUpdate) :
    ∃ ts, compileAssignments as = .ok (Template.joinWith "," ts) ∧
      ∀ p, List.Forall₂ Sets as (Template.parts p ts) := by
  obtain ⟨ts, hts, hitems⟩ := updateAssignments_ok h 0
  refine ⟨ts, ?_, hitems⟩
  rw [← Compiled.joinWith_ok, ← hts]
  rfl

theorem compileAssignments_refused {before : List Assignment} {a : Assignment} {e : Error}
    (hbefore : ∀ b ∈ before, ¬ b.RefusedByUpdate) (h : UpdateRefuses before.length a e)
    (after : List Assignment) :
    ∃ t, compileAssignments (before ++ a :: after) = .error ⟨t, e⟩ := by
  obtain ⟨ts, hts, -⟩ := updateAssignments_ok hbefore 0
  have hall : updateAssignments 0 (before ++ a :: after) =
      ts.map .ok ++ .error ⟨[], e⟩ :: updateAssignments (before.length + 1) after := by
    rw [← hts, ← updateAssignment_of_refuses h]
    simp [updateAssignments, List.zipIdx_append]
  obtain ⟨t, ht⟩ :=
    Compiled.joinWith_error "," ts ⟨[], e⟩ (updateAssignments (before.length + 1) after)
  refine ⟨t, ?_⟩
  rw [← hall] at ht
  exact ht

/-! ## The clauses after what is set -/

namespace Criteria

variable {c : Criteria} {t : Template}

theorem values_clauses (c : Criteria) (having : Template) :
    (c.clauses having).values = having.values := by
  have hclause (clause : Option String) : (clauseTemplate clause).values = [] := by
    cases clause <;> rfl
  rw [clauses, Template.values_joinWith, Template.flatMap_values_filter]
  simp [hclause]

/-- The clauses after the condition on rows have the values of the condition on groups. -/
theorem values_options (h : c.compileOptions.lead " " = .ok t) :
    ∃ groups, compileOptional c.having = .ok groups ∧ t.values = groups.values := by
  obtain ⟨u, hu, ht⟩ := Compiled.lead_eq_ok h
  obtain ⟨v, hv, rfl⟩ := Compiled.after_eq_ok hu
  obtain ⟨having, hhaving, rfl⟩ := map_eq_ok hv
  obtain ⟨groups, hgroups, hvalues⟩ := Compiled.lead_eq_ok hhaving
  refine ⟨groups, hgroups, ?_⟩
  rw [ht, ← hvalues, ← values_clauses c having]
  rfl

end Criteria

/-! ## The statement -/

structure UpdateParts where
  joins : Template.Part
  /-- one item for each assignment -/
  items : List Template.Part
  /-- the condition on rows -/
  rows : Template.Part
  /-- the clauses after it, of which only the condition on groups has values -/
  options : Template.Part

namespace UpdateParts

def sql (parts : UpdateParts) (table : String) : String :=
  "UPDATE " ++ table ++ parts.joins.text ++ " SET " ++
    ",".intercalate (parts.items.map (·.text)) ++ parts.rows.text ++ parts.options.text

/-- All that is placed, in the order of the text. -/
def placed (parts : UpdateParts) : List (Nat × Value) :=
  parts.joins.placed ++ parts.items.flatMap (·.placed) ++ parts.rows.placed ++ parts.options.placed

end UpdateParts

/-- The parts are those of an update by the draft. -/
structure Draft.UpdatesBy (d : Draft) (parts : UpdateParts) : Prop where
  joins : ∃ t, compileJoins d.joins = .ok t ∧ t.Fills parts.joins
  items : List.Forall₂ Sets d.values.entries parts.items
  rows : ∃ t, d.criteria.compileWhere.lead " WHERE " = .ok t ∧ t.Fills parts.rows
  options : ∃ t, d.criteria.compileOptions.lead " " = .ok t ∧ t.Fills parts.options
  groups : ∃ t, compileOptional d.criteria.having = .ok t ∧
    parts.options.placed.map (·.2) = t.values

namespace Builder

variable {r : Rendering} {table : String}

theorem compile_update {d : Draft} (hcommand : d.command = .update) (htable : d.table? = some table)
    (hvalues : d.values.entries ≠ []) :
    d.compile = .text ("UPDATE " ++ table) ++ compileJoins d.joins ++ .text " SET " ++
      compileAssignments d.values.entries ++ d.criteria.compile := by
  have hempty : d.values.isEmpty = false := List.isEmpty_eq_false_iff.2 hvalues
  unfold Draft.compile
  rw [htable]
  dsimp only
  rw [hcommand]
  dsimp only
  unfold Draft.compileUpdate
  rw [hempty]
  rfl

theorem update_refused (hcommand : r.draft.command = .update)
    (htable : r.draft.table? = some table) (hjoins : ∃ t, compileJoins r.draft.joins = .ok t)
    {before after : List Assignment} {a : Assignment} {e : Error}
    (hvalues : r.draft.values.entries = before ++ a :: after)
    (hbefore : ∀ b ∈ before, ¬ b.RefusedByUpdate) (h : UpdateRefuses before.length a e) :
    r.result = .error e := by
  obtain ⟨joins, hjoins⟩ := hjoins
  obtain ⟨t, ht⟩ := compileAssignments_refused hbefore h after
  have hne : r.draft.values.entries ≠ [] := by simp [hvalues]
  refine Rendering.result_error
    (f := ⟨[.text ("UPDATE " ++ table)] ++ joins ++ [.text " SET "] ++ t, e⟩) ?_
  rw [compile_update hcommand htable hne, hjoins, hvalues, ht]
  rfl

theorem update_ok (hcommand : r.draft.command = .update) (htable : r.draft.table? = some table)
    (hvalues : r.draft.values.entries ≠ []) (hjoins : ∃ t, compileJoins r.draft.joins = .ok t)
    (hcriteria : ∃ t, r.draft.criteria.compile = .ok t)
    (h : ∀ a ∈ r.draft.values.entries, ¬ a.RefusedByUpdate) :
    ∃ s parts, r.result = .ok s ∧ r.draft.UpdatesBy parts ∧ s.sql = parts.sql table ∧
      s.params.Extends r.draft.criteria.boundParams parts.placed := by
  obtain ⟨joins, hjoins⟩ := hjoins
  obtain ⟨clauses, hclauses⟩ := hcriteria
  obtain ⟨rows, options, hrows, hoptions, rfl⟩ := Compiled.append_eq_ok hclauses
  obtain ⟨groups, hgroups, hvalues'⟩ := Criteria.values_options hoptions
  obtain ⟨ts, hts, hitems⟩ := compileAssignments_ok h
  have hcompile : r.draft.compile = .ok ([.text ("UPDATE " ++ table)] ++ joins ++ [.text " SET "] ++
      Template.joinWith "," ts ++ (rows ++ options)) := by
    rw [compile_update hcommand htable hvalues, hjoins, hts, hclauses]
    rfl
  obtain ⟨s, hresult, hsql, hparams⟩ := Rendering.result_ok hcompile
  -- the placements that the parts start from
  let p₁ := (joins.fill r.start).2
  let p₂ := ((Template.joinWith "," ts).fill p₁).2
  let p₃ := (rows.fill p₂).2
  refine ⟨s, ⟨joins.part r.start, Template.parts p₁ ts, rows.part p₂, options.part p₃⟩, hresult,
    ?_, ?_, ?_⟩
  · exact {
      joins := ⟨joins, hjoins, joins.fills_part _⟩
      items := hitems p₁
      rows := ⟨rows, hrows, rows.fills_part _⟩
      options := ⟨options, hoptions, options.fills_part _⟩
      groups := ⟨groups, hgroups, (Template.map_snd_placements options p₃).trans hvalues'⟩ }
  · rw [hsql]
    simp only [List.append_assoc, List.cons_append, List.nil_append, Template.fill_text,
      Template.fill_append_fst, Template.fill_append_snd, Template.fill_joinWith, UpdateParts.sql,
      Template.part, String.append_assoc, p₁, p₂, p₃]
  · simp only [List.append_assoc, List.cons_append, List.nil_append, Template.placements_text,
      Template.placements_append, Template.placements_joinWith] at hparams
    simpa only [UpdateParts.placed, Template.part, List.append_assoc] using hparams

theorem update_error_iff (hcommand : r.draft.command = .update)
    (htable : r.draft.table? = some table) (hvalues : r.draft.values.entries ≠ [])
    (hjoins : ∃ t, compileJoins r.draft.joins = .ok t)
    (hcriteria : ∃ t, r.draft.criteria.compile = .ok t) :
    (∃ e, r.result = .error e) ↔ ∃ a ∈ r.draft.values.entries, a.RefusedByUpdate := by
  constructor
  · rintro ⟨e, he⟩
    by_contra hrefused
    obtain ⟨s, -, hs, -⟩ :=
      update_ok hcommand htable hvalues hjoins hcriteria (by simpa using hrefused)
    cases he.symm.trans hs
  · rintro ⟨a, ha, hrefused⟩
    obtain hnone | ⟨before, b, after, hsplit, hbefore, hb⟩ :=
      none_or_first Assignment.RefusedByUpdate r.draft.values.entries
    · exact absurd hrefused (hnone a ha)
    · obtain ⟨e, he⟩ := hb.at before.length
      exact ⟨e, update_refused hcommand htable hjoins hsplit hbefore he⟩

/-- Whatever has been done with a builder for an update of a table that has assignments, and whose
joins and criteria compile:

* it fails exactly if some assignment is refused, with the error of the first one;
* otherwise the statement has the joins, one item for each assignment in order, the condition on
  rows and the other clauses. Its parameters are the caller's with one new binding for each value
  placed, and their numbers increase in the order of these parts. -/
theorem toSql_update (d : Draft) (n : Nat) (steps : List Step) {table : String}
    (hcommand : (run ⟨d, n, none⟩ steps).draft.command = .update)
    (htable : (run ⟨d, n, none⟩ steps).draft.table? = some table)
    (hvalues : (run ⟨d, n, none⟩ steps).draft.values.entries ≠ [])
    (hjoins : ∃ t, compileJoins (run ⟨d, n, none⟩ steps).draft.joins = .ok t)
    (hcriteria : ∃ t, (run ⟨d, n, none⟩ steps).draft.criteria.compile = .ok t) :
    let b := run ⟨d, n, none⟩ steps
    let as := b.draft.values.entries
    ((∃ e, b.toSql.1 = .error e) ↔ ∃ a ∈ as, a.RefusedByUpdate) ∧
      (∀ before a after e, as = before ++ a :: after → (∀ x ∈ before, ¬ x.RefusedByUpdate) →
        UpdateRefuses before.length a e → b.toSql.1 = .error e) ∧
      ((∀ a ∈ as, ¬ a.RefusedByUpdate) → ∃ s parts,
        b.toSql.1 = .ok s ∧
          b.draft.UpdatesBy parts ∧
          s.sql = parts.sql table ∧
          s.params.Extends b.draft.criteria.boundParams parts.placed) := by
  obtain ⟨r, hdraft, hresult⟩ := toSql_run d n steps
  intro b as
  rw [← hdraft] at hcommand htable hvalues hjoins hcriteria
  have has : as = r.draft.values.entries := by rw [hdraft]
  have hb : b.draft = r.draft := hdraft.symm
  rw [has, hb, hresult]
  exact ⟨update_error_iff hcommand htable hvalues hjoins hcriteria,
    fun before a after e => update_refused hcommand htable hjoins,
    update_ok hcommand htable hvalues hjoins hcriteria⟩

/-- An update with values in all its parts. -/
def visit : Draft where
  command := .update
  table := some "user u"
  joins := [⟨"LEFT JOIN", "profile p", .structured (.ofList [.field "p.kind" (.scalar (.int 1))])⟩]
  values := .ofList
    [.column "u.name" (.text "'Ash'"), .column "u.left" .null,
      .expr (.text "u.visits = u.visits + 1")]
  criteria :=
    { filter := some (.structured (.ofList [.field "u.id" (.scalar (.int 3))]))
      having := some (.structured (.ofList [.field "n:>" (.scalar (.int 4))]))
      params := .ofList [(.named ":dy2", .value (.int 5))] }

/-- The numbers go through the parts in order, past the name of the caller. -/
theorem toSql_update_visit :
    (∀ a ∈ visit.values.entries, ¬ a.RefusedByUpdate) ∧
      ∃ s parts, (run ⟨visit, 0, none⟩ []).toSql.1 = .ok s ∧ visit.UpdatesBy parts ∧
        s.sql = parts.sql "user u" ∧
        s.params.Extends visit.criteria.boundParams parts.placed ∧
        s.sql = "UPDATE user u LEFT JOIN profile p ON p.kind = :dy0 SET u.name = :dy1," ++
          "u.left = NULL,u.visits = u.visits + 1 WHERE u.id = :dy3 HAVING `n` > :dy4" := by
  have hnone : ∀ a ∈ visit.values.entries, ¬ a.RefusedByUpdate := by decide +kernel
  have htable : (run ⟨visit, 0, none⟩ []).draft.table? = some "user u" := rfl
  obtain ⟨s, parts, hs, hparts, hsql, hparams⟩ :=
    (toSql_update visit 0 [] rfl htable (by decide) ⟨_, rfl⟩ ⟨_, rfl⟩).2.2 hnone
  have htext : (run ⟨visit, 0, none⟩ []).toSql.1.toOption.map (·.sql) =
      some ("UPDATE user u LEFT JOIN profile p ON p.kind = :dy0 SET u.name = :dy1," ++
        "u.left = NULL,u.visits = u.visits + 1 WHERE u.id = :dy3 HAVING `n` > :dy4") := by
    decide +kernel
  rw [hs] at htext
  exact ⟨hnone, s, parts, hs, hparts, hsql, hparams, Option.some.inj htext⟩

end Builder

end SqlStatement
