import SqlStatement.Proofs.Builder.Instances

/-!
# Statements from the templates of their parts

Insertions and updates are put together from what each assignment comes to, up to the first one that
is refused. A statement that compiles has the text of its template, and its parameters are the
caller's with one new binding for each value.

* `Template.Fills` : a part of a text as an instance of a template;
* `Params.Extends`, `Rendering.result_ok`, `Rendering.result_error` : the result of a rendering.
-/

namespace SqlStatement

theorem none_or_first {α : Type} (P : α → Prop) (xs : List α) :
    (∀ x ∈ xs, ¬ P x) ∨ ∃ before x after, xs = before ++ x :: after ∧ (∀ y ∈ before, ¬ P y) ∧ P x := by
  classical
  rcases hfind : xs.find? (decide <| P ·) with _ | x
  · exact Or.inl (by simpa using hfind)
  · obtain ⟨hx, before, after, hxs, hbefore⟩ := List.find?_eq_some_iff_append.1 hfind
    exact Or.inr ⟨before, x, after, hxs, by simpa using hbefore, by simpa using hx⟩

/-! ## Parts with a text between them -/

namespace Compiled

theorem joinWith_ok (sep : String) (ts : List Template) :
    joinWith sep (ts.map .ok) = .ok (Template.joinWith sep ts) := by
  induction ts with
  | nil => rfl
  | cons t ts ih =>
    rcases ts with _ | ⟨u, us⟩
    · rfl
    · show after t (after [.text sep] (joinWith sep ((u :: us).map .ok))) = _
      rw [ih]
      rfl

theorem joinWith_error (sep : String) (ts : List Template) (f : Failure) (cs : List Compiled) :
    ∃ t, joinWith sep (ts.map .ok ++ .error f :: cs) = .error ⟨t, f.error⟩ := by
  induction ts with
  | nil =>
    rcases cs with _ | ⟨c, cs⟩
    · exact ⟨f.written, rfl⟩
    · exact ⟨f.written, rfl⟩
  | cons t ts ih =>
    obtain ⟨u, hu⟩ := ih
    have hjoin : joinWith sep ((t :: ts).map .ok ++ .error f :: cs) =
        after t (after [.text sep] (joinWith sep (ts.map .ok ++ .error f :: cs))) := by
      rcases ts with _ | ⟨v, vs⟩
      · rfl
      · rfl
    rw [hjoin, hu]
    exact ⟨_, rfl⟩

end Compiled

/-! ## Instances of a template -/

/-- The part is the template with placeholders of some numbers in it, one for each of its values in
order. -/
structure Template.Fills (t : Template) (part : Template.Part) : Prop where
  values : part.placed.map (·.2) = t.values
  text : part.text = interleave t.leading
    (part.placed.map fun e => Placement.placeholder e.1) (t.following.map (·.2))

theorem Template.fills_part (t : Template) (p : Placement) : t.Fills (t.part p) :=
  ⟨map_snd_placements t p, fill_eq_interleave t p⟩

/-! ## The result of a rendering -/

/-- The parameters are the caller's, followed by a binding for each of the values placed. Their
numbers increase, and none of their names is one of the caller's. -/
structure Params.Extends (ps caller : Params) (placed : List (Nat × Value)) : Prop where
  entries : ps.entries = caller.entries ++ placed.map Template.placed
  increasing : (placed.map (·.1)).Pairwise (· < ·)
  fresh : ∀ e ∈ placed, Placement.generated e.1 ∉ caller.keys

theorem Params.Extends.get?_placed {ps caller : Params} {placed : List (Nat × Value)}
    (h : ps.Extends caller placed) {k : Nat} {v : Value} (hmem : (k, v) ∈ placed) :
    ps.get? (Placement.generated k) = some (.value v) := by
  rw [← Params.mem_entries_iff, h.entries]
  exact List.mem_append_right _ (List.mem_map_of_mem hmem)

namespace Builder

variable {r : Rendering}

theorem Rendering.result_error {f : Failure} (h : r.draft.compile = .error f) :
    r.result = .error f.error := by
  unfold result renderDraft
  rw [h]
  rfl

theorem Rendering.compile_of_result {s : Statement} (h : r.result = .ok s) :
    ∃ t, r.draft.compile = .ok t := by
  rcases hcompile : r.draft.compile with f | t
  · rw [result_error hcompile] at h
    cases h
  · exact ⟨t, rfl⟩

theorem Rendering.result_ok {t : Template} (h : r.draft.compile = .ok t) :
    ∃ s, r.result = .ok s ∧ s.sql = (t.fill r.start).1 ∧
      s.params.Extends r.draft.criteria.boundParams (t.placements r.start) := by
  obtain ⟨s, hresult, hsql⟩ := exists_result h
  have hplaced := placements_of_compile h
  refine ⟨s, hresult, hsql, ?_, Template.sorted_placements t r.start, ?_⟩
  · rw [entries_result hresult, hplaced]
  · exact fun e he => Template.placements_notMem he

/-- Whatever has been done with a builder, its result is that of rendering its draft from some
number. -/
theorem toSql_run (d : Draft) (n : Nat) (steps : List Step) :
    ∃ r : Rendering, r.draft = (run ⟨d, n, none⟩ steps).draft ∧
      (run ⟨d, n, none⟩ steps).toSql.1 = r.result := by
  have hist := (history_nil (b := ⟨d, n, none⟩) rfl).run steps
  rcases hb : (run ⟨d, n, none⟩ steps).rendered with _ | s
  · refine ⟨⟨_, (run ⟨d, n, none⟩ steps).next⟩, rfl, ?_⟩
    rw [toSql_of_none hb, render_eq]
    rfl
  · -- a statement that is there is the result of the last rendering
    obtain ⟨earlier, r, -, hdraft, hresult⟩ := hist.current s hb
    refine ⟨r, hdraft, ?_⟩
    rw [toSql_of_some hb, hresult]

end Builder

end SqlStatement
