import SqlStatement.Proofs.Text
import SqlStatement.ResultColumn

/-!
# The last alias of an expression

An alias stands after the last `AS` outside brackets, and outside brackets means that as many have
been opened before it as closed. What stands before this `AS` is of no account, further ones
included.

* `startsAlias_iff`, `lastAlias?_eq_none_iff` : where an `AS` outside brackets stands;
* `lastAlias?_append`, `lastAlias?_spaceless_append` : the last of them in a text of two parts.
-/

namespace SqlStatement

/-! ## Brackets -/

/-- How many more brackets the text opens than it closes. -/
def bracketDepth (cs : List Char) : Int := cs.count '(' - cs.count ')'

theorem bracketDepth_append (a b : List Char) :
    bracketDepth (a ++ b) = bracketDepth a + bracketDepth b := by
  simp only [bracketDepth, List.count_append]
  omega

theorem bracketDepth_cons (c : Char) (cs : List Char) :
    bracketDepth (c :: cs) = bracketDepth [c] + bracketDepth cs := bracketDepth_append [c] cs

theorem bracketDepth_eq_zero {cs : List Char} (hopen : '(' ∉ cs) (hclose : ')' ∉ cs) :
    bracketDepth cs = 0 := by
  rw [bracketDepth, List.count_eq_zero.2 hopen, List.count_eq_zero.2 hclose]
  rfl

/-! ## The last alias -/

section LastAlias

variable {cs label : List Char} {depth : Int}

theorem startsAlias_iff : startsAlias cs = true ↔
    ∃ a s rest, a.toUpper = 'A' ∧ s.toUpper = 'S' ∧ cs = ' ' :: a :: s :: ' ' :: rest := by
  unfold startsAlias
  rw [beq_iff_eq]
  constructor
  · intro h
    rcases cs with _ | ⟨b, _ | ⟨a, _ | ⟨s, _ | ⟨d, rest⟩⟩⟩⟩
    · cases h
    · simp at h
    · simp at h
    · simp at h
    · simp only [List.take_succ_cons, List.take_zero, List.map_cons, List.map_nil, List.cons.injEq,
        and_true] at h
      obtain ⟨hb, ha, hs, hd⟩ := h
      rw [Text.eq_of_toUpper_eq (by decide) hb, Text.eq_of_toUpper_eq (by decide) hd]
      exact ⟨a, s, rest, ha, hs, rfl⟩
  · rintro ⟨a, s, rest, ha, hs, rfl⟩
    simp [ha, hs]

theorem startsAlias_cons_eq_false {c : Char} (h : c ≠ ' ' ∨ ' ' ∉ cs) :
    startsAlias (c :: cs) = false := by
  rw [Bool.eq_false_iff]
  intro hstarts
  obtain ⟨a, s, rest, -, -, heq⟩ := startsAlias_iff.1 hstarts
  obtain ⟨rfl, rfl⟩ := List.cons.inj heq
  simp at h

/-- An alias further on is taken before the one that starts here. -/
theorem lastAlias?_cons (depth : Int) (c : Char) (cs : List Char) : lastAlias? depth (c :: cs) =
    (lastAlias? (depth + bracketDepth [c]) cs).or
      (if depth = 0 ∧ startsAlias (c :: cs) then some (cs.drop 3) else none) := by
  have hnext : (if c = '(' then depth + 1 else if c = ')' then depth - 1 else depth) =
      depth + bracketDepth [c] := by
    by_cases hopen : c = '('
    · subst hopen
      rfl
    · by_cases hclose : c = ')'
      · subst hclose
        rfl
      · rw [if_neg hopen, if_neg hclose, bracketDepth_eq_zero (by simp [Ne.symm hopen])
          (by simp [Ne.symm hclose]), Int.add_zero]
  rw [lastAlias?, hnext]
  cases lastAlias? (depth + bracketDepth [c]) cs with
  | none => rfl
  | some label => rfl

/-- There is no alias exactly if no `AS` stands outside brackets. -/
theorem lastAlias?_eq_none_iff : lastAlias? depth cs = none ↔
    ∀ a b, cs = a ++ b → depth + bracketDepth a = 0 → startsAlias b = false := by
  induction cs generalizing depth with
  | nil =>
    refine ⟨fun _ a b hab _ => ?_, fun _ => rfl⟩
    obtain ⟨-, rfl⟩ := List.append_eq_nil_iff.1 hab.symm
    rfl
  | cons c cs ih =>
    rw [lastAlias?_cons, Option.or_eq_none_iff, ih]
    constructor
    · rintro ⟨hrest, hhere⟩ a b hab hdepth
      rcases a with _ | ⟨d, a⟩
      · obtain rfl : c :: cs = b := hab
        have hzero : depth = 0 := by simpa [bracketDepth] using hdepth
        simpa [hzero] using hhere
      · obtain ⟨rfl, rfl⟩ := List.cons.inj hab
        rw [bracketDepth_cons, ← Int.add_assoc] at hdepth
        exact hrest a b rfl hdepth
    · intro h
      constructor
      · intro a b hab hdepth
        rw [Int.add_assoc, ← bracketDepth_cons] at hdepth
        exact h (c :: a) b (congrArg (c :: ·) hab) hdepth
      · refine if_neg ?_
        rintro ⟨rfl, hstarts⟩
        rw [h [] (c :: cs) rfl rfl] at hstarts
        cases hstarts

theorem lastAlias?_zero_eq_none_iff : lastAlias? 0 cs = none ↔
    ∀ a b, cs = a ++ b → bracketDepth a = 0 → startsAlias b = false := by
  simp only [lastAlias?_eq_none_iff, Int.zero_add]

/-- Whatever stands before the last alias is of no account but for its brackets. -/
theorem lastAlias?_append {a b : List Char} (h : lastAlias? (depth + bracketDepth a) b = some label) :
    lastAlias? depth (a ++ b) = some label := by
  induction a generalizing depth with
  | nil => simpa [bracketDepth] using h
  | cons c a ih =>
    rw [bracketDepth_cons, ← Int.add_assoc] at h
    rw [List.cons_append, lastAlias?_cons, ih h]
    rfl

theorem lastAlias?_spaceless_append {a : List Char} (h : ' ' ∉ a) (b : List Char) :
    lastAlias? depth (a ++ b) = lastAlias? (depth + bracketDepth a) b := by
  induction a generalizing depth with
  | nil => simp [bracketDepth]
  | cons c a ih =>
    rw [List.mem_cons, not_or] at h
    rw [List.cons_append, lastAlias?_cons, ih h.2, bracketDepth_cons c a, ← Int.add_assoc,
      startsAlias_cons_eq_false (Or.inl (Ne.symm h.1))]
    simp

theorem lastAlias?_eq_none (h : ' ' ∉ cs) (depth : Int) : lastAlias? depth cs = none := by
  simpa [lastAlias?] using lastAlias?_spaceless_append h []

/-- A label without blank spaces has no further alias in it. -/
theorem lastAlias?_label {a s : Char} (ha : a.toUpper = 'A') (hs : s.toUpper = 'S')
    (hlabel : ' ' ∉ label) : lastAlias? 0 (' ' :: a :: s :: ' ' :: label) = some label := by
  have hstarts : startsAlias (' ' :: a :: s :: ' ' :: label) = true :=
    startsAlias_iff.2 ⟨a, s, label, ha, hs, rfl⟩
  have hword : ' ' ∉ [a, s] := by
    intro hmem
    rw [List.mem_pair] at hmem
    obtain rfl | rfl := hmem
    · exact absurd ha (by decide)
    · exact absurd hs (by decide)
  have hrest : ∀ depth, lastAlias? depth ([a, s] ++ ' ' :: label) = none := by
    intro depth
    rw [lastAlias?_spaceless_append hword, lastAlias?_cons, lastAlias?_eq_none hlabel,
      startsAlias_cons_eq_false (Or.inr hlabel)]
    simp
  rw [lastAlias?_cons]
  exact (congrArg (Option.or · _) (hrest _)).trans (if_pos ⟨rfl, hstarts⟩)

/-! ## Result columns -/

variable {expr : String}

theorem resultColumn_of_alias (htrim : Text.trimWhile Text.isBlank expr.toList = cs)
    (h : lastAlias? 0 cs = some label) :
    resultColumn expr = String.ofList (Text.trimWhile isNameEdge label) := by
  unfold resultColumn
  rw [htrim]
  dsimp only
  rw [h]

theorem resultColumn_of_unaliased (htrim : Text.trimWhile Text.isBlank expr.toList = cs)
    (h : lastAlias? 0 cs = none) :
    resultColumn expr = String.ofList (unqualified (withoutDistinct cs)) := by
  unfold resultColumn
  rw [htrim]
  dsimp only
  rw [h]

end LastAlias

end SqlStatement
