import SqlStatement.Proofs.Placement

/-!
# What filling a template places

Filling a template hands its values to the placement one after the other. `Template.placements`
lists the number and the value of each.

* `placements_bounds`, `sorted_placements` : the numbers increase and stay between the counter
  before and the one after;
* `entries_fill` : where the bindings that join are bound already, filling adds one binding for each
  value at the end and nothing else;
* `Compiled.written`, `Compiled.run_snd` : what has been written also when compiling failed.
-/

namespace SqlStatement

namespace Template

open Placement

/-- The numbers and values that filling the template places, in order. -/
def placements : Template → Placement → List (Nat × Value)
  | [], _ => []
  | .text _ :: rest, p => placements rest p
  | .value v :: rest, p => (p.free, v) :: placements rest (p.place v).2
  | .params ps :: rest, p => placements rest (p.join ps)

/-- The binding that placing a value makes. -/
def placed (e : Nat × Value) : ParamKey × Binding := (generated e.1, .value e.2)

/-! ## Filling one piece after the other -/

theorem fill_text (s : String) (t : Template) (p : Placement) :
    fill (.text s :: t) p = (s ++ (fill t p).1, (fill t p).2) := rfl

theorem fill_value (v : Value) (t : Template) (p : Placement) :
    fill (.value v :: t) p =
      (placeholder p.free ++ (fill t (p.place v).2).1, (fill t (p.place v).2).2) := rfl

theorem fill_params (ps : Params) (t : Template) (p : Placement) :
    fill (.params ps :: t) p = fill t (p.join ps) := rfl

theorem placements_text (s : String) (t : Template) (p : Placement) :
    placements (.text s :: t) p = placements t p := rfl

theorem placements_params (ps : Params) (t : Template) (p : Placement) :
    placements (.params ps :: t) p = placements t (p.join ps) := rfl

theorem fill_append_snd (t u : Template) (p : Placement) :
    (fill (t ++ u) p).2 = (fill u (fill t p).2).2 := by
  induction t generalizing p with
  | nil => rfl
  | cons piece t ih =>
    rw [List.cons_append]
    cases piece with
    | text s => exact ih p
    | value v => exact ih (p.place v).2
    | params ps => exact ih (p.join ps)

theorem fill_append_fst (t u : Template) (p : Placement) :
    (fill (t ++ u) p).1 = (fill t p).1 ++ (fill u (fill t p).2).1 := by
  induction t generalizing p with
  | nil => exact (String.empty_append).symm
  | cons piece t ih =>
    rw [List.cons_append]
    cases piece with
    | text s =>
      rw [fill_text, fill_text, ih, String.append_assoc]
    | value v =>
      rw [fill_value, fill_value, ih, String.append_assoc]
    | params ps => exact ih (p.join ps)

theorem placements_append (t u : Template) (p : Placement) :
    placements (t ++ u) p = placements t p ++ placements u (fill t p).2 := by
  induction t generalizing p with
  | nil => rfl
  | cons piece t ih =>
    rw [List.cons_append]
    cases piece with
    | text s => exact ih p
    | value v => exact congrArg ((p.free, v) :: ·) (ih (p.place v).2)
    | params ps => exact ih (p.join ps)

/-! ## Values and numbers -/

theorem map_snd_placements (t : Template) (p : Placement) :
    (placements t p).map (·.2) = values t := by
  induction t generalizing p with
  | nil => rfl
  | cons piece t ih =>
    cases piece with
    | text s => exact ih p
    | value v => exact congrArg (v :: ·) (ih (p.place v).2)
    | params ps => exact ih (p.join ps)

theorem next_le_fill (t : Template) (p : Placement) : p.next ≤ (fill t p).2.next := by
  induction t generalizing p with
  | nil => exact Nat.le_refl _
  | cons piece t ih =>
    cases piece with
    | text s => exact ih p
    | value v =>
      have hfree := p.next_le_free
      have hrest := ih (p.place v).2
      rw [place_next] at hrest
      show p.next ≤ (fill t (p.place v).2).2.next
      omega
    | params ps => exact ih (p.join ps)

/-- Numbers come from the counter before on and stay below the counter after. -/
theorem placements_bounds {t : Template} {p : Placement} {e : Nat × Value}
    (he : e ∈ placements t p) : p.next ≤ e.1 ∧ e.1 < (fill t p).2.next := by
  induction t generalizing p with
  | nil => exact absurd he List.not_mem_nil
  | cons piece t ih =>
    cases piece with
    | text s => exact ih he
    | value v =>
      have hfree := p.next_le_free
      show p.next ≤ e.1 ∧ e.1 < (fill t (p.place v).2).2.next
      obtain rfl | he := List.mem_cons.1 he
      · have hrest := next_le_fill t (p.place v).2
        rw [place_next] at hrest
        exact ⟨hfree, hrest⟩
      · obtain ⟨hlow, hhigh⟩ := ih he
        rw [place_next] at hlow
        exact ⟨by omega, hhigh⟩
    | params ps => exact ih he

theorem sorted_placements (t : Template) (p : Placement) :
    ((placements t p).map (·.1)).Pairwise (· < ·) := by
  induction t generalizing p with
  | nil => exact List.Pairwise.nil
  | cons piece t ih =>
    cases piece with
    | text s => exact ih p
    | value v =>
      refine List.Pairwise.cons ?_ (ih (p.place v).2)
      intro n hn
      obtain ⟨e, he, rfl⟩ := List.mem_map.1 hn
      have hlow := (placements_bounds he).1
      rw [place_next] at hlow
      exact hlow
    | params ps => exact ih (p.join ps)

/-! ## Names -/

/-- No name that is bound before filling is given out. -/
theorem placements_notMem {t : Template} {p : Placement} {e : Nat × Value}
    (he : e ∈ placements t p) : generated e.1 ∉ p.params.keys := by
  induction t generalizing p with
  | nil => exact absurd he List.not_mem_nil
  | cons piece t ih =>
    cases piece with
    | text s => exact ih he
    | value v =>
      obtain rfl | he := List.mem_cons.1 he
      · exact p.generated_free_notMem
      · intro hm
        refine ih he ?_
        rw [keys_place]
        exact List.mem_append_left _ hm
    | params ps => exact fun hm => ih he (Params.mem_keys_merge.2 (Or.inl hm))

/-- Bindings that are there already may join on the way: filling changes none of the bindings and
adds one for each value, in order. -/
theorem entries_fill {t : Template} {p : Placement}
    (h : ∀ ps, Piece.params ps ∈ t → ps.entries ⊆ p.params.entries) :
    (fill t p).2.params.entries = p.params.entries ++ (placements t p).map placed := by
  induction t generalizing p with
  | nil => exact (List.append_nil _).symm
  | cons piece t ih =>
    have ht := fun ps hps => h ps (List.mem_cons_of_mem piece hps)
    cases piece with
    | text s => exact ih ht
    | value v =>
      have hrest : (fill t (p.place v).2).2.params.entries =
          (p.place v).2.params.entries ++ (placements t (p.place v).2).map placed := by
        refine ih fun ps hps => ?_
        rw [entries_place]
        exact List.subset_append_of_subset_left _ (ht ps hps)
      rw [fill_value, hrest, entries_place, List.append_assoc]
      rfl
    | params ps =>
      have hjoin : p.join ps = p := by
        unfold Placement.join
        rw [Params.merge_eq_self (h ps List.mem_cons_self)]
      rw [fill_params, placements_params, hjoin]
      exact ih ht

theorem get?_fill {t : Template} {p : Placement}
    (h : ∀ ps, Piece.params ps ∈ t → ps.entries ⊆ p.params.entries) {key : ParamKey} {b : Binding} :
    (fill t p).2.params.get? key = some b ↔
      p.params.get? key = some b ∨ (key, b) ∈ (placements t p).map placed := by
  rw [← Params.mem_entries_iff, entries_fill h, List.mem_append, Params.mem_entries_iff]

theorem mem_map_placed {es : List (Nat × Value)} {key : ParamKey} {b : Binding} :
    (key, b) ∈ es.map placed ↔ ∃ e ∈ es, key = generated e.1 ∧ b = .value e.2 := by
  rw [List.mem_map]
  simp only [placed, Prod.mk.injEq, eq_comm]

/-! ## Templates with a text between them -/

/-- A part of a statement's text, with the numbers and values that are placed in it. -/
structure Part where
  text : String
  placed : List (Nat × Value)

def part (p : Placement) (t : Template) : Part := ⟨(t.fill p).1, t.placements p⟩

theorem part_text (p : Placement) (s : String) : part p [.text s] = ⟨s, []⟩ :=
  congrArg (Part.mk · []) String.append_empty

theorem part_value (p : Placement) (v : Value) :
    part p [.value v] = ⟨placeholder p.free, [(p.free, v)]⟩ :=
  congrArg (Part.mk · _) String.append_empty

theorem part_text_value (p : Placement) (s : String) (v : Value) :
    part p [.text s, .value v] = ⟨s ++ placeholder p.free, [(p.free, v)]⟩ := by
  show Part.mk (s ++ (placeholder p.free ++ "")) [(p.free, v)] = _
  rw [String.append_empty]

def parts (p : Placement) : List Template → List Part
  | [] => []
  | t :: ts => t.part p :: parts (t.fill p).2 ts

theorem fill_joinWith (sep : String) (ts : List Template) (p : Placement) :
    ((joinWith sep ts).fill p).1 = sep.intercalate ((parts p ts).map (·.text)) := by
  induction ts generalizing p with
  | nil => rfl
  | cons t ts ih =>
    cases ts with
    | nil => exact String.intercalate_singleton.symm
    | cons u us =>
      show (fill (t ++ .text sep :: joinWith sep (u :: us)) p).1 = _
      rw [fill_append_fst, fill_text, ih (t.fill p).2]
      simp only [parts, part, List.map_cons, String.intercalate_cons_cons, String.append_assoc]

theorem placements_joinWith (sep : String) (ts : List Template) (p : Placement) :
    (joinWith sep ts).placements p = (parts p ts).flatMap (·.placed) := by
  induction ts generalizing p with
  | nil => rfl
  | cons t ts ih =>
    cases ts with
    | nil => exact (List.append_nil _).symm
    | cons u us =>
      show placements (t ++ .text sep :: joinWith sep (u :: us)) p = _
      rw [placements_append, placements_text, ih (t.fill p).2]
      rfl

/-! ## Values of templates that are put together -/

theorem values_append (t u : Template) : values (t ++ u) = values t ++ values u := by
  rw [← map_snd_placements (t ++ u) {}, placements_append, List.map_append, map_snd_placements,
    map_snd_placements]

theorem values_joinWith (sep : String) : ∀ ts : List Template,
    values (joinWith sep ts) = ts.flatMap values
  | [] => rfl
  | [t] => (List.append_nil _).symm
  | t :: u :: us => by
    rw [joinWith, values_append, List.flatMap_cons, ← values_joinWith sep (u :: us)]
    · rfl
    · simp

/-- A template that leaves no text has no value. -/
theorem values_of_not_hasText : ∀ {t : Template}, t.hasText = false → values t = []
  | [], _ => rfl
  | piece :: t, h => by
    rw [hasText, List.any_cons, Bool.or_eq_false_iff] at h
    have ht := values_of_not_hasText (t := t) h.2
    cases piece with
    | text s => exact ht
    | value v => cases h.1
    | params ps => exact ht

theorem flatMap_values_filter (ts : List Template) :
    (ts.filter hasText).flatMap values = ts.flatMap values := by
  induction ts with
  | nil => rfl
  | cons t ts ih =>
    by_cases ht : t.hasText = true
    · rw [List.filter_cons_of_pos ht, List.flatMap_cons, List.flatMap_cons, ih]
    · rw [List.filter_cons_of_neg ht, ih, List.flatMap_cons,
        values_of_not_hasText (Bool.not_eq_true _ ▸ ht), List.nil_append]

end Template

/-! ## Compiling -/

theorem map_eq_ok {ε α β : Type} {x : Except ε α} {f : α → β} {b : β} (h : x.map f = .ok b) :
    ∃ a, x = .ok a ∧ f a = b := by
  cases x with
  | error e => cases h
  | ok a => exact ⟨a, rfl, Except.ok.inj h⟩

namespace Compiled

theorem after_eq_ok {c : Compiled} {t w : Template} (h : after t c = .ok w) :
    ∃ u, c = .ok u ∧ w = t ++ u := by
  rcases c with f | u
  · cases h
  · cases h
    exact ⟨u, rfl, rfl⟩

theorem append_eq_ok {c d : Compiled} {w : Template} (h : c ++ d = .ok w) :
    ∃ t u, c = .ok t ∧ d = .ok u ∧ w = t ++ u := by
  rcases c with f | t
  · cases h
  · rcases d with f | u
    · cases h
    · cases h
      exact ⟨t, u, rfl, rfl, rfl⟩

theorem lead_eq_ok {s : String} {c : Compiled} {t : Template} (h : lead s c = .ok t) :
    ∃ u, c = .ok u ∧ t.values = u.values := by
  rcases c with f | u
  · cases h
  · refine ⟨u, rfl, ?_⟩
    cases h
    split_ifs <;> rfl

/-- What has been written, also if an error has come up. -/
def written : Compiled → Template
  | .ok t => t
  | .error f => f.written

/-- The numbers and values that running places, also if an error has come up. -/
def placements (c : Compiled) (p : Placement) : List (Nat × Value) := c.written.placements p

theorem run_snd (c : Compiled) (p : Placement) : (c.run p).2 = (c.written.fill p).2 := by
  cases c with
  | ok t => rfl
  | error f => rfl

theorem written_after (t : Template) (c : Compiled) : (after t c).written = t ++ c.written := by
  cases c with
  | ok u => rfl
  | error f => rfl

theorem run_after_snd (t : Template) (c : Compiled) (p : Placement) :
    ((after t c).run p).2 = (c.run (t.fill p).2).2 := by
  rw [run_snd, run_snd, written_after, Template.fill_append_snd]

/-- What is compiled after a template is run after the template has been filled. -/
theorem run_after (t : Template) (c : Compiled) (p : Placement) :
    (after t c).run p =
      ((c.run (t.fill p).2).1.map ((t.fill p).1 ++ ·), (c.run (t.fill p).2).2) := by
  refine Prod.ext ?_ (run_after_snd t c p)
  cases c with
  | ok u => exact congrArg Except.ok (Template.fill_append_fst t u p)
  | error f => rfl

theorem run_append_of_ok {c : Compiled} {p q : Placement} {s : String} (h : c.run p = (.ok s, q))
    (d : Compiled) : (c ++ d).run p = ((d.run q).1.map (s ++ ·), (d.run q).2) := by
  cases c with
  | ok t =>
    cases h
    exact run_after t d p
  | error f => cases h

theorem run_append_of_error {c : Compiled} {p q : Placement} {e : Error}
    (h : c.run p = (.error e, q)) (d : Compiled) : (c ++ d).run p = (.error e, q) := by
  cases c with
  | ok t => cases h
  | error f => exact h

theorem placements_after (t : Template) (c : Compiled) (p : Placement) :
    (after t c).placements p = t.placements p ++ c.placements (t.fill p).2 := by
  unfold placements
  rw [written_after, Template.placements_append]

/-- A text in front places nothing. -/
theorem written_lead (s : String) (c : Compiled) :
    (lead s c).written = c.written ∨ (lead s c).written = .text s :: c.written := by
  cases c with
  | error f => exact Or.inl rfl
  | ok t =>
    show (if t.hasText then .text s :: t else t) = t ∨ _
    by_cases ht : t.hasText
    · right
      show (if t.hasText then .text s :: t else t) = _
      rw [if_pos ht]
      rfl
    · left
      rw [if_neg ht]

theorem run_lead_snd (s : String) (c : Compiled) (p : Placement) :
    ((lead s c).run p).2 = (c.run p).2 := by
  rw [run_snd, run_snd]
  obtain h | h := written_lead s c
  · rw [h]
  · rw [h, Template.fill_text]

theorem placements_lead (s : String) (c : Compiled) (p : Placement) :
    (lead s c).placements p = c.placements p := by
  unfold placements
  obtain h | h := written_lead s c
  · rw [h]
  · rw [h]
    rfl

end Compiled

end SqlStatement
