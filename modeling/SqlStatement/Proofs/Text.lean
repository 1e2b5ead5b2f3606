import Mathlib.Data.List.DropRight
import Mathlib.Data.List.Infix
import SqlStatement.Text.Blank

/-!
# Trimmed and divided texts

* `Trimmed`, `trimWhile_eq_iff` : what is left of a text when its ends are trimmed;
* `cut?_eq_some_iff`, `cut?_eq_none_iff` : a text divided at the first place of a character;
* `append_sep_inj` : a text divided at separators in only one way;
* `occursIn_iff`, `occurs_asciiUpper_iff` : a text within another.
-/

namespace SqlStatement.Text

/-! ## Trimmed texts -/

section Trimmed

variable {p : Char → Bool}

theorem dropWhile_trimWhile (cs : List Char) : (trimWhile p cs).dropWhile p = trimWhile p cs := by
  have hstart : trimWhile p cs <+: cs.dropWhile p := List.rdropWhile_prefix p _
  rw [List.dropWhile_eq_self_iff]
  intro hlength
  rw [hstart.getElem hlength]
  exact List.dropWhile_get_zero_not p cs (hlength.trans_le hstart.length_le)

theorem trimWhile_trimWhile (cs : List Char) : trimWhile p (trimWhile p cs) = trimWhile p cs := by
  have houter : trimWhile p (trimWhile p cs) = dropEndWhile p (trimWhile p cs) :=
    congrArg (dropEndWhile p) (dropWhile_trimWhile cs)
  rw [houter]
  exact List.rdropWhile_idempotent p _

theorem trimWhile_eq_nil_iff {cs : List Char} : trimWhile p cs = [] ↔ ∀ c ∈ cs, p c := by
  have hend : trimWhile p cs = [] ↔ ∀ c ∈ cs.dropWhile p, p c := List.rdropWhile_eq_nil_iff
  rw [hend, ← List.dropWhile_eq_nil_iff, List.dropWhile_idempotent, List.dropWhile_eq_nil_iff]

/-- Neither the first nor the last character satisfies `p`. -/
def Trimmed (p : Char → Bool) (cs : List Char) : Prop :=
  (∀ c ∈ cs.head?, p c = false) ∧ ∀ c ∈ cs.getLast?, p c = false

theorem trimmed_of_forall {cs : List Char} (h : ∀ c ∈ cs, p c = false) : Trimmed p cs :=
  ⟨fun c hc => h c (List.mem_of_mem_head? hc), fun c hc => h c (List.mem_of_mem_getLast? hc)⟩

theorem trimmed_trimWhile (cs : List Char) : Trimmed p (trimWhile p cs) := by
  refine ⟨fun c hc => ?_, fun c hc => ?_⟩
  · have hhead := List.head?_dropWhile_not p (trimWhile p cs)
    rw [dropWhile_trimWhile, Option.mem_def.1 hc] at hhead
    exact hhead
  · obtain ⟨hne, rfl⟩ := List.mem_getLast?_eq_getLast hc
    exact Bool.not_eq_true _ ▸ List.rdropWhile_last_not p (cs.dropWhile p) hne

theorem exists_append_trimWhile (cs : List Char) :
    ∃ l r, (∀ c ∈ l, p c) ∧ (∀ c ∈ r, p c) ∧ cs = l ++ trimWhile p cs ++ r := by
  refine ⟨cs.takeWhile p, (cs.dropWhile p).rtakeWhile p, fun c => List.mem_takeWhile_imp,
    fun c => List.mem_rtakeWhile_imp, ?_⟩
  have hend : trimWhile p cs ++ (cs.dropWhile p).rtakeWhile p = cs.dropWhile p :=
    List.rdropWhile_append_rtakeWhile
  rw [List.append_assoc, hend, List.takeWhile_append_dropWhile]

theorem Trimmed.dropWhile_append {t r : List Char} (ht : Trimmed p t) (hne : t ≠ []) :
    (t ++ r).dropWhile p = t ++ r := by
  obtain ⟨c, t, rfl⟩ := List.exists_cons_of_ne_nil hne
  exact List.dropWhile_cons_of_neg (Bool.eq_false_iff.1 (ht.1 c rfl))

theorem Trimmed.reverse {t : List Char} (ht : Trimmed p t) : Trimmed p t.reverse := by
  unfold Trimmed
  rw [List.head?_reverse, List.getLast?_reverse]
  exact ht.symm

theorem trimWhile_append_append {l t r : List Char} (hl : ∀ c ∈ l, p c) (hr : ∀ c ∈ r, p c)
    (ht : Trimmed p t) : trimWhile p (l ++ t ++ r) = t := by
  by_cases hne : t = []
  · subst hne
    rw [trimWhile_eq_nil_iff]
    simpa [or_imp, forall_and] using ⟨hl, hr⟩
  · have hstart : (l ++ t ++ r).dropWhile p = t ++ r := by
      rw [List.append_assoc, List.dropWhile_append_of_pos hl, ht.dropWhile_append hne]
    have hend : (r.reverse ++ t.reverse).dropWhile p = t.reverse := by
      rw [List.dropWhile_append_of_pos (by simpa using hr)]
      simpa using ht.reverse.dropWhile_append (r := []) (by simpa using hne)
    unfold trimWhile dropEndWhile
    rw [hstart, List.reverse_append, hend, List.reverse_reverse]

theorem trimWhile_surrounded {l r : List Char} (hl : ∀ c ∈ l, p c) (hr : ∀ c ∈ r, p c)
    (cs : List Char) : trimWhile p (l ++ cs ++ r) = trimWhile p cs := by
  obtain ⟨l', r', hl', hr', hcs⟩ := exists_append_trimWhile (p := p) cs
  have hmore : l ++ cs ++ r = l ++ l' ++ trimWhile p cs ++ (r' ++ r) := by
    nth_rewrite 1 [hcs]
    simp
  rw [hmore]
  refine trimWhile_append_append ?_ ?_ (trimmed_trimWhile cs)
  · simpa [or_imp, forall_and] using ⟨hl, hl'⟩
  · simpa [or_imp, forall_and] using ⟨hr', hr⟩

theorem trimWhile_infix (cs : List Char) : trimWhile p cs <:+: cs := by
  obtain ⟨l, r, -, -, hcs⟩ := exists_append_trimWhile (p := p) cs
  exact ⟨l, r, hcs.symm⟩

/-- A text whose end is not to be trimmed keeps what stands from its first such character on. -/
theorem trimWhile_append {cs ds : List Char} (hcs : ∃ c ∈ cs, p c = false)
    (hds : ∃ c ∈ ds.getLast?, p c = false) : trimWhile p (cs ++ ds) = cs.dropWhile p ++ ds := by
  obtain ⟨c, hc, hpc⟩ := hcs
  obtain ⟨d, hd, hpd⟩ := hds
  have hne : cs.dropWhile p ≠ [] := by
    rw [ne_eq, List.dropWhile_eq_nil_iff]
    intro hall
    rw [hall c hc] at hpc
    cases hpc
  have htrimmed : Trimmed p (cs.dropWhile p ++ ds) := by
    refine ⟨fun b hb => ?_, fun b hb => ?_⟩
    · rw [List.head?_append_of_ne_nil _ hne] at hb
      have hhead := List.head?_dropWhile_not p cs
      rw [Option.mem_def.1 hb] at hhead
      exact hhead
    · rw [List.getLast?_append, Option.mem_def.1 hd] at hb
      obtain rfl := Option.some.inj hb
      exact hpd
  have hsplit := trimWhile_append_append (l := cs.takeWhile p) (r := [])
    (fun b => List.mem_takeWhile_imp) (by simp) htrimmed
  rwa [List.append_nil, ← List.append_assoc, List.takeWhile_append_dropWhile] at hsplit

/-- A text is what trimming leaves exactly if it has been surrounded with characters to trim. -/
theorem trimWhile_eq_iff {cs t : List Char} : trimWhile p cs = t ↔
    Trimmed p t ∧ ∃ l r, (∀ c ∈ l, p c) ∧ (∀ c ∈ r, p c) ∧ cs = l ++ t ++ r := by
  constructor
  · rintro rfl
    exact ⟨trimmed_trimWhile cs, exists_append_trimWhile cs⟩
  · rintro ⟨ht, l, r, hl, hr, rfl⟩
    exact trimWhile_append_append hl hr ht

theorem trimWhile_eq_self_iff {cs : List Char} : trimWhile p cs = cs ↔ Trimmed p cs := by
  rw [trimWhile_eq_iff]
  exact ⟨And.left, fun h => ⟨h, [], [], by simp⟩⟩

theorem toList_strip (s : String) : (strip p s).toList = trimWhile p s.toList :=
  String.toList_ofList

theorem toList_trim (s : String) : (trim s).toList = trimWhile isBlank s.toList :=
  String.toList_ofList

theorem trim_eq_self_iff {s : String} : trim s = s ↔ Trimmed isBlank s.toList := by
  rw [← String.toList_inj, toList_trim, trimWhile_eq_self_iff]

theorem trimEnd_eq_self {s : String} (h : Trimmed isBlank s.toList) : trimEnd s = s := by
  have hend : dropEndWhile isBlank s.toList = s.toList :=
    List.rdropWhile_eq_self_iff.2 fun hne =>
      Bool.eq_false_iff.1 (h.2 _ (List.getLast?_eq_getLast_of_ne_nil hne))
  unfold trimEnd stripEnd
  rw [hend, String.ofList_toList]

theorem trim_eq_empty_iff {s : String} : trim s = "" ↔ isBlankText s = true := by
  unfold isBlankText
  rw [List.all_eq_true, ← trimWhile_eq_nil_iff, ← String.toList_inj, toList_trim]
  rfl

end Trimmed

theorem isBlank_of_visible {c : Char} (h : 33 ≤ c.toNat ∧ c.toNat ≤ 126) : isBlank c = false := by
  simp only [isBlank, blankRanges, List.any_cons, List.any_nil, Bool.or_false,
    Bool.or_eq_false_iff, Bool.and_eq_false_iff, decide_eq_false_iff_not]
  omega

/-! ## Letter case -/

section LetterCase

variable {c d : Char}

/-- A character before the letters is the upper case of itself only. -/
theorem eq_of_toUpper_eq (hd : d.toNat < 65) (h : c.toUpper = d) : c = d := by
  unfold Char.toUpper at h
  split at h
  next hlower =>
    subst h
    simp only [Char.toNat, UInt32.le_iff_toNat_le, UInt32.toNat_add, Char.reduceVal,
      UInt32.reduceSub, UInt32.reduceToNat] at hd hlower
    omega
  next => exact h

theorem eq_of_toLower_eq (hd : d.toNat < 65) (h : c.toLower = d) : c = d := by
  unfold Char.toLower at h
  split at h
  next hupper =>
    subst h
    simp only [Char.toNat, ge_iff_le, UInt32.le_iff_toNat_le, UInt32.toNat_add, Char.reduceVal,
      UInt32.reduceSub, UInt32.reduceToNat] at hd hupper
    omega
  next => exact h

theorem isBlank_of_toLower (h : isBlank c.toLower = false) : isBlank c = false := by
  unfold Char.toLower at h
  split at h
  next hupper =>
    refine isBlank_of_visible ?_
    simp only [ge_iff_le, UInt32.le_iff_toNat_le] at hupper
    exact ⟨Nat.le_trans (by decide) hupper.1, Nat.le_trans hupper.2 (by decide)⟩
  next => exact h

end LetterCase

/-! ## Numbers -/

theorem isDigit_of_mem_toString {n : Nat} {c : Char} (hc : c ∈ (toString n).toList) :
    c.isDigit = true := by
  rw [Nat.toString_eq_repr, Nat.toList_repr] at hc
  exact Nat.isDigit_of_mem_toDigits (by decide) (by decide) hc

theorem toString_injective {m n : Nat} (h : toString m = toString n) : m = n := by
  rw [Nat.toString_eq_repr, Nat.toString_eq_repr] at h
  have hdigits := congrArg (fun s : String => Nat.ofDigitChars 10 s.toList 0) h
  simpa only [Nat.toList_repr, Nat.ofDigitChars_ten_toDigits] using hdigits

/-! ## Divided texts -/

theorem cutAt?_eq_some_iff {sep : Char} {cs a b : List Char} :
    cutAt? sep cs = some (a, b) ↔ cs = a ++ sep :: b ∧ sep ∉ a := by
  induction cs generalizing a with
  | nil => simp [cutAt?]
  | cons c cs ih =>
    unfold cutAt?
    by_cases hc : c = sep
    · subst hc
      rw [if_pos rfl]
      rcases a with _ | ⟨d, a⟩
      · simp [eq_comm]
      · -- a part before the first place does not begin with the character itself
        simp only [Option.some.injEq, Prod.mk.injEq, List.cons_append, List.cons.injEq,
          List.mem_cons, not_or, reduceCtorEq, false_and, false_iff, not_and]
        rintro ⟨rfl, -⟩ h
        exact absurd rfl h
    · rw [if_neg hc]
      rcases a with _ | ⟨d, a⟩
      · simp [hc]
      · simp only [Option.map_eq_some_iff, Prod.mk.injEq, Prod.exists, List.cons.injEq,
          List.cons_append, List.mem_cons, not_or]
        constructor
        · rintro ⟨a', b', hcut, ⟨rfl, rfl⟩, rfl⟩
          obtain ⟨hcs, hsep⟩ := ih.1 hcut
          exact ⟨⟨rfl, hcs⟩, Ne.symm hc, hsep⟩
        · rintro ⟨⟨rfl, hcs⟩, -, hsep⟩
          exact ⟨a, b, ih.2 ⟨hcs, hsep⟩, ⟨rfl, rfl⟩, rfl⟩

theorem cutAt?_eq_none_iff {sep : Char} {cs : List Char} : cutAt? sep cs = none ↔ sep ∉ cs := by
  induction cs with
  | nil => simp [cutAt?]
  | cons c cs ih =>
    unfold cutAt?
    by_cases hc : c = sep
    · simp [hc]
    · rw [if_neg hc, Option.map_eq_none_iff, ih, List.mem_cons, not_or]
      exact ⟨fun h => ⟨Ne.symm hc, h⟩, And.right⟩

theorem cut?_eq_some_iff {sep : Char} {s a b : String} :
    cut? sep s = some (a, b) ↔ s = a ++ String.singleton sep ++ b ∧ sep ∉ a.toList := by
  unfold cut?
  rw [Option.map_eq_some_iff]
  constructor
  · rintro ⟨⟨as, bs⟩, hcut, hab⟩
    cases hab
    obtain ⟨hs, hsep⟩ := cutAt?_eq_some_iff.1 hcut
    refine ⟨String.toList_inj.1 ?_, by rwa [String.toList_ofList]⟩
    rw [hs]
    simp
  · rintro ⟨rfl, hsep⟩
    refine ⟨(a.toList, b.toList), cutAt?_eq_some_iff.2 ⟨by simp, hsep⟩, ?_⟩
    simp

theorem cut?_eq_none_iff {sep : Char} {s : String} : cut? sep s = none ↔ sep ∉ s.toList := by
  unfold cut?
  rw [Option.map_eq_none_iff, cutAt?_eq_none_iff]

theorem afterLastIn?_eq_none {sep : Char} {cs : List Char} (h : sep ∉ cs) :
    afterLastIn? sep cs = none := by
  induction cs with
  | nil => rfl
  | cons c cs ih =>
    rw [List.mem_cons, not_or] at h
    unfold afterLastIn?
    rw [ih h.2]
    exact if_neg (Ne.symm h.1)

/-- What stands after the last place is the same whatever stands before a place. -/
theorem afterLastIn?_append_cons {sep : Char} (a b : List Char) :
    afterLastIn? sep (a ++ sep :: b) = some ((afterLastIn? sep b).getD b) := by
  induction a with
  | nil =>
    rw [List.nil_append, afterLastIn?]
    cases afterLastIn? sep b with
    | none => exact if_pos rfl
    | some rest => rfl
  | cons c a ih => rw [List.cons_append, afterLastIn?, ih]

theorem afterLastIn?_append {sep : Char} {a b : List Char} (h : sep ∉ b) :
    afterLastIn? sep (a ++ sep :: b) = some b := by
  rw [afterLastIn?_append_cons, afterLastIn?_eq_none h, Option.getD_none]

theorem afterLastIn?_suffix {sep : Char} {cs rest : List Char}
    (h : afterLastIn? sep cs = some rest) : rest <:+ cs := by
  induction cs with
  | nil => cases h
  | cons c cs ih =>
    rw [afterLastIn?] at h
    split at h
    next later hlater =>
      exact (ih (hlater.trans h)).trans (List.suffix_cons c cs)
    next =>
      rw [← Option.some.inj (Option.ite_none_right_eq_some.1 h).2]
      exact List.suffix_cons c cs

/-! ## Beginnings and endings -/

theorem dropStartIn?_eq_some_iff {start cs rest : List Char} :
    dropStartIn? start cs = some rest ↔ cs = start ++ rest := by
  induction start generalizing cs with
  | nil => simp [dropStartIn?]
  | cons a start ih =>
    rcases cs with _ | ⟨c, cs⟩
    · simp [dropStartIn?]
    · unfold dropStartIn?
      by_cases hac : a = c
      · simp [hac, ih]
      · simp [hac, Ne.symm hac]

theorem cutAtText?_append {c : Char} {sep a : List Char} (h : c ∉ a) (b : List Char) :
    cutAtText? (c :: sep) (a ++ (c :: sep ++ b)) = some (a, b) := by
  induction a with
  | nil =>
    have hstart : dropStartIn? (c :: sep) (c :: (sep ++ b)) = some b := dropStartIn?_eq_some_iff.2 rfl
    rw [List.nil_append, List.cons_append, cutAtText?, hstart]
  | cons d a ih =>
    rw [List.mem_cons, not_or] at h
    rw [List.cons_append, cutAtText?, dropStartIn?, if_neg h.1, ih h.2]
    rfl

/-- What stands before the end of a separator, from a place on where the separator could begin, is
nothing or begins with all of it, if the separator's first character does not come again in it. -/
theorem nil_or_prefix_of_append_eq {c : Char} {sep t u b : List Char} (hsep : c ∉ sep)
    (h : t ++ c :: u = c :: sep ++ b) : t = [] ∨ c :: sep <+: t := by
  obtain ⟨r, hr, hu⟩ | ⟨r, hr, -⟩ := List.append_eq_append_iff.1 h
  · rcases r with _ | ⟨e, r⟩
    · exact Or.inr ⟨[], by rw [hr, List.append_nil, List.append_nil]⟩
    · -- the rest of the separator would begin with its first character
      obtain rfl : c = e := (List.cons.inj hu).1
      rcases t with _ | ⟨d, t⟩
      · exact Or.inl rfl
      · have hmem : c ∈ sep := by
          rw [(List.cons.inj hr).2]
          simp
        exact absurd hmem hsep
  · exact Or.inr ⟨r, hr.symm⟩

/-- Of two divisions of one text, each at a separator that does not stand in the other's first part,
the first parts are equal. -/
theorem append_sep_inj {c : Char} {sep sep' a a' b b' : List Char} (hsep : c ∉ sep)
    (hsep' : c ∉ sep') (ha : ¬c :: sep' <:+: a) (ha' : ¬c :: sep <:+: a')
    (h : a ++ (c :: sep ++ b) = a' ++ (c :: sep' ++ b')) : a = a' ∧ sep ++ b = sep' ++ b' := by
  obtain ⟨t, rfl, ht⟩ | ⟨t, rfl, ht⟩ := List.append_eq_append_iff.1 h
  · obtain rfl | hstart := nil_or_prefix_of_append_eq hsep ht.symm
    · exact ⟨(List.append_nil a).symm, (List.cons.inj ht).2⟩
    · exact absurd (hstart.isInfix.trans (List.suffix_append a t).isInfix) ha'
  · obtain rfl | hstart := nil_or_prefix_of_append_eq hsep' ht.symm
    · exact ⟨List.append_nil a', (List.cons.inj ht).2.symm⟩
    · exact absurd (hstart.isInfix.trans (List.suffix_append a' t).isInfix) ha

theorem dropStart?_eq_some_iff {start s t : String} :
    dropStart? start s = some t ↔ s = start ++ t := by
  unfold dropStart?
  rw [Option.map_eq_some_iff]
  constructor
  · rintro ⟨rest, hrest, rfl⟩
    rw [← String.toList_inj, dropStartIn?_eq_some_iff.1 hrest]
    simp
  · rintro rfl
    exact ⟨t.toList, dropStartIn?_eq_some_iff.2 (by simp), by simp⟩

theorem dropSuffix?_eq_some_iff {ending s t : String} :
    dropSuffix? ending s = some t ↔ s = t ++ ending := by
  unfold dropSuffix?
  rw [Option.map_eq_some_iff]
  constructor
  · rintro ⟨rest, hrest, rfl⟩
    have hs := congrArg List.reverse (dropStartIn?_eq_some_iff.1 hrest)
    rw [← String.toList_inj]
    simpa using hs
  · rintro rfl
    exact ⟨t.toList.reverse, dropStartIn?_eq_some_iff.2 (by simp), by simp⟩

theorem dropStart?_eq_none_iff {start s : String} :
    dropStart? start s = none ↔ ∀ t, s ≠ start ++ t := by
  simp only [Option.eq_none_iff_forall_ne_some, ne_eq, dropStart?_eq_some_iff]

/-! ## Texts within texts -/

theorem occursIn_iff {needle cs : List Char} : occursIn needle cs = true ↔ needle <:+: cs := by
  induction cs with
  | nil => rw [occursIn, List.isEmpty_iff, List.infix_nil]
  | cons c cs ih =>
    rw [occursIn, Bool.or_eq_true, List.isPrefixOf_iff_prefix, ih, List.infix_cons_iff]

/-- A text occurs in upper case where it stands with its letters of either case. -/
theorem occurs_asciiUpper_iff {needle s : String} : occurs needle (asciiUpper s) = true ↔
    ∃ l, l <:+: s.toList ∧ needle.toList = l.map Char.toUpper := by
  have hupper : (asciiUpper s).toList = s.toList.map Char.toUpper := String.toList_ofList
  unfold occurs
  rw [occursIn_iff, hupper, List.infix_map_iff]

/-- A text without a character stands on one side of it. -/
theorem infix_append_cons_iff {c : Char} {needle a b : List Char} (h : c ∉ needle) :
    needle <:+: a ++ c :: b ↔ needle <:+: a ∨ needle <:+: b := by
  have hstart : ∀ {l}, c ∉ l → l <+: c :: b → l = [] := by
    intro l hl hprefix
    obtain hnil | ⟨t, rfl, -⟩ := List.prefix_cons_iff.1 hprefix
    · exact hnil
    · exact absurd List.mem_cons_self hl
  constructor
  · intro hinfix
    obtain hleft | hright | ⟨l, r, rfl, hl, hr⟩ := List.infix_append_iff.1 hinfix
    · exact Or.inl hleft
    · obtain hprefix | hright := List.infix_cons_iff.1 hright
      · rw [hstart h hprefix]
        exact Or.inl List.nil_infix
      · exact Or.inr hright
    · rw [hstart (fun hc => h (List.mem_append_right l hc)) hr, List.append_nil]
      exact Or.inl hl.isInfix
  · rintro (hleft | hright)
    · exact hleft.trans (List.infix_append' [] a (c :: b))
    · exact (List.infix_cons hright).trans (List.suffix_append a (c :: b)).isInfix

theorem infix_word_append_iff {needle w b : List Char} (h : ∀ c ∈ needle.head?, c ∉ w) :
    needle <:+: w ++ b ↔ needle <:+: b := by
  induction w with
  | nil => rfl
  | cons d w ih =>
    rw [List.cons_append, List.infix_cons_iff, ih fun c hc hw => h c hc (List.mem_cons_of_mem d hw)]
    refine or_iff_right_of_imp fun hprefix => ?_
    obtain rfl | ⟨t, rfl, -⟩ := List.prefix_cons_iff.1 hprefix
    · exact List.nil_infix
    · exact absurd List.mem_cons_self (h d rfl)

end SqlStatement.Text
