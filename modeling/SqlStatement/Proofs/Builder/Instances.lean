import SqlStatement.Proofs.Builder.Runs

/-!
# Renderings from different counters

The counter is read only when a placeholder is named. Everything else about a statement, the texts
between the placeholders, the values and the error if there is one, is settled by the draft.

* `Template.leading`, `Template.following` : the text before the first value of a template, and its
  values with the text after each;
* `Builder.render_instances` : all renderings of a draft fail alike or are instances of one pattern.
-/

namespace SqlStatement

/-- The texts, with the names between them. -/
def interleave (first : String) : List String → List String → String
  | name :: names, t :: ts => first ++ name ++ interleave t names ts
  | _, _ => first

theorem append_interleave (s first : String) (names ts : List String) :
    s ++ interleave first names ts = interleave (s ++ first) names ts := by
  rcases names with _ | ⟨name, names⟩
  · rfl
  · rcases ts with _ | ⟨t, ts⟩
    · rfl
    · simp only [interleave, String.append_assoc]

namespace Template

open Placement

/-! ## The pattern of a template -/

/-- The text before the first value. -/
def leading : Template → String
  | [] => ""
  | .text s :: t => s ++ leading t
  | .value _ :: _ => ""
  | .params _ :: t => leading t

/-- The values, each with the text up to the next one. -/
def following : Template → List (Value × String)
  | [] => []
  | .text _ :: t => following t
  | .value v :: t => (v, leading t) :: following t
  | .params _ :: t => following t

theorem map_fst_following (t : Template) : t.following.map (·.1) = t.values := by
  induction t with
  | nil => rfl
  | cons piece t ih =>
    rcases piece with s | v | ps
    · exact ih
    · exact congrArg (v :: ·) ih
    · exact ih

theorem length_placements (t : Template) (p : Placement) :
    (t.placements p).length = t.following.length := by
  have hvalues := congrArg List.length (map_snd_placements t p)
  rw [← map_fst_following, List.length_map, List.length_map] at hvalues
  exact hvalues

theorem fill_eq_interleave (t : Template) (p : Placement) :
    (t.fill p).1 = interleave t.leading ((t.placements p).map fun e => placeholder e.1)
      (t.following.map (·.2)) := by
  induction t generalizing p with
  | nil => rfl
  | cons piece t ih =>
    rcases piece with s | v | ps
    · have hrest := congrArg (s ++ ·) (ih p)
      exact hrest.trans (append_interleave _ _ _ _)
    · have hrest := congrArg (placeholder p.free ++ ·) (ih (p.place v).2)
      refine hrest.trans ?_
      simp only [placements, following, leading, List.map_cons, interleave, String.empty_append]
    · exact ih (p.join ps)

end Template

namespace Builder

open Placement

/-! ## Failing and succeeding -/

theorem Rendering.placements_of_compile {r : Rendering} {t : Template}
    (hc : r.draft.compile = .ok t) : r.placements = t.placements r.start := by
  unfold placements
  rw [hc]
  rfl

theorem Rendering.exists_result {r : Rendering} {t : Template} (hc : r.draft.compile = .ok t) :
    ∃ s, r.result = .ok s ∧ s.sql = (t.fill r.start).1 := by
  unfold result renderDraft
  rw [hc]
  exact ⟨_, rfl, rfl⟩

/-- If rendering fails from one counter it fails from every counter, with the same error. -/
theorem renderDraft_error {d : Draft} {n : Nat} {e : Error} (h : (renderDraft d n).1 = .error e)
    (m : Nat) : (renderDraft d m).1 = .error e := by
  unfold renderDraft at h ⊢
  rcases hc : d.compile with f | t
  · rw [hc] at h
    exact h
  · rw [hc] at h
    cases h

/-! ## Instances of one pattern -/

/-- All renderings of a draft, whatever the counter and whatever was rendered before, fail with one
error, or they are instances of one pattern: the same texts with the names of the placeholders
between them, one for each value. The names of a rendering are different from each other, none is a
name of the caller, and its parameters bind each name to its value. -/
theorem render_instances (d : Draft) :
    (∃ e, ∀ n cached, (render ⟨d, n, cached⟩).1 = .error e) ∨
      ∃ (first : String) (rest : List (Value × String)), ∀ n cached, ∃ s,
        let names := (Rendering.mk d n).numbers.map placeholder
        (render ⟨d, n, cached⟩).1 = .ok s ∧
          names.length = rest.length ∧
          names.Nodup ∧
          (∀ name ∈ names, ParamKey.named name ∉ d.criteria.boundParams.keys) ∧
          s.sql = interleave first names (rest.map (·.2)) ∧
          ∀ e ∈ names.zip (rest.map (·.1)), s.params.get? (.named e.1) = some (.value e.2) := by
  rcases hc : d.compile with f | t
  · refine Or.inl ⟨f.error, fun n cached => ?_⟩
    rw [render_eq]
    show (renderDraft d n).1 = .error f.error
    unfold renderDraft
    rw [hc]
    rfl
  · refine Or.inr ⟨t.leading, t.following, fun n cached => ?_⟩
    obtain ⟨s, hresult, hsql⟩ := Rendering.exists_result (r := ⟨d, n⟩) hc
    have hplaced : (Rendering.mk d n).placements = t.placements (Rendering.mk d n).start :=
      Rendering.placements_of_compile hc
    have hnames : (Rendering.mk d n).numbers.map placeholder =
        (t.placements (Rendering.mk d n).start).map fun e => placeholder e.1 := by
      unfold Rendering.numbers
      rw [hplaced, List.map_map]
      rfl
    refine ⟨s, ?_, ?_, ?_, ?_, ?_, ?_⟩
    · rw [render_eq]
      exact hresult
    · rw [hnames, List.length_map, Template.length_placements]
    · have hsorted := (Rendering.mk d n).sorted_numbers
      refine List.Pairwise.map placeholder ?_ hsorted
      intro a b hab heq
      exact Nat.ne_of_lt hab (placeholder_injective heq)
    · intro name hname
      obtain ⟨k, hk, rfl⟩ := List.mem_map.1 hname
      exact Rendering.numbers_notMem hk
    · rw [hnames, hsql]
      exact Template.fill_eq_interleave t _
    · intro e he
      rw [hnames, Template.map_fst_following,
        ← Template.map_snd_placements t (Rendering.mk d n).start, List.zip_map'] at he
      obtain ⟨p, hp, rfl⟩ := List.mem_map.1 he
      rw [← Params.mem_entries_iff, Rendering.entries_result hresult, hplaced]
      exact List.mem_append_right _ (List.mem_map.2 ⟨p, hp, rfl⟩)

end Builder

end SqlStatement
