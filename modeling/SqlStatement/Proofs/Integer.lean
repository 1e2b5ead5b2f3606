import SqlStatement.Integer
import SqlStatement.Proofs.Text

/-!
# Written integers

An integer is written with a minus sign if it is negative, and then with digits of which the first
is no zero, except that zero is written `0`. The three readers of integers differ in the texts that
they accept beside these; the canonical one accepts no others.

* `canonical?_eq_some_iff` : the canonical reader accepts what is written, and nothing else;
* `plain?_write`, `signed?_write`, `trim_write` : what is written, for the other readers.
-/

namespace SqlStatement.Integer

/-! ## Digits -/

theorem digitChar_of_isDigit {c : Char} (h : c.isDigit = true) :
    c.toNat - '0'.toNat < 10 ∧ (c.toNat - '0'.toNat).digitChar = c := by
  simp only [Char.isDigit, Bool.and_eq_true, decide_eq_true_eq, ge_iff_le,
    UInt32.le_iff_toNat_le] at h
  have hlow : 48 ≤ c.toNat := h.1
  have hhigh : c.toNat ≤ 57 := h.2
  have hzero : '0'.toNat = 48 := rfl
  have hlt : c.toNat - '0'.toNat < 10 := by omega
  refine ⟨hlt, Char.toNat_inj.1 ?_⟩
  rw [Nat.toNat_digitChar_of_lt_ten hlt]
  omega

theorem toDigits_append {cs : List Char} (hcs : ∀ c ∈ cs, c.isDigit = true) :
    ∀ {n : Nat}, 0 < n → Nat.toDigits 10 n ++ cs = Nat.toDigits 10 (Nat.ofDigitChars 10 cs n) := by
  induction cs with
  | nil =>
    intro n _
    rw [List.append_nil, Nat.ofDigitChars_nil]
  | cons c cs ih =>
    intro n hn
    obtain ⟨hlt, hchar⟩ := digitChar_of_isDigit (hcs c List.mem_cons_self)
    have hstep : Nat.toDigits 10 n ++ [c] = Nat.toDigits 10 (10 * n + (c.toNat - '0'.toNat)) := by
      rw [← Nat.toDigits_append_toDigits (by decide) hn hlt, Nat.toDigits_of_lt_base hlt, hchar]
    rw [Nat.ofDigitChars_cons, ← ih (fun d hd => hcs d (List.mem_cons_of_mem c hd)) (by omega),
      ← hstep, List.append_assoc, List.singleton_append]

theorem ofDigits?_toDigits (n : Nat) : ofDigits? (Nat.toDigits 10 n) = some n := by
  have hdigits : (Nat.toDigits 10 n).all Char.isDigit = true :=
    List.all_eq_true.2 fun c hc => Nat.isDigit_of_mem_toDigits (by decide) (by decide) hc
  unfold ofDigits?
  rw [hdigits, List.isEmpty_eq_false_iff.2 Nat.toDigits_ne_nil, Nat.ofDigitChars_ten_toDigits]
  rfl

theorem leadingZero_append {cs ds : List Char} (h : cs ≠ []) :
    leadingZero (cs ++ ds) = leadingZero cs := by
  obtain ⟨c, cs, rfl⟩ := List.exists_cons_of_ne_nil h
  by_cases hc : c = '0'
  · subst hc
    rfl
  · simp [leadingZero, hc]

theorem leadingZero_toDigits (n : Nat) : leadingZero (Nat.toDigits 10 n) = decide (n = 0) := by
  induction n using Nat.strong_induction_on with
  | _ n ih =>
    by_cases hn : n < 10
    · rw [Nat.toDigits_of_lt_base hn]
      by_cases hzero : n = 0
      · subst hzero
        rfl
      · simp [leadingZero, hzero]
    · rw [Nat.toDigits_of_base_le (by decide) (by omega), leadingZero_append Nat.toDigits_ne_nil,
        ih (n / 10) (by omega)]
      exact decide_eq_decide.2 (by omega)

theorem ofDigits?_positive {cs : List Char} {n : Nat} :
    leadingZero cs = false ∧ ofDigits? cs = some n ↔ n ≠ 0 ∧ cs = Nat.toDigits 10 n := by
  constructor
  · rintro ⟨hzero, hread⟩
    suffices hcs : cs = Nat.toDigits 10 n by
      rw [hcs, leadingZero_toDigits] at hzero
      exact ⟨of_decide_eq_false hzero, hcs⟩
    unfold ofDigits? at hread
    split at hread
    next hdigits =>
      rw [Bool.and_eq_true, List.all_eq_true] at hdigits
      obtain rfl := Option.some.inj hread
      rcases cs with _ | ⟨c, cs⟩
      · exact absurd hdigits.1 (by decide)
      · obtain ⟨hlt, hchar⟩ := digitChar_of_isDigit (hdigits.2 c List.mem_cons_self)
        have hpos : 0 < c.toNat - '0'.toNat := by
          refine Nat.pos_of_ne_zero fun h => ?_
          rw [h] at hchar
          subst hchar
          cases hzero
        have hcs := toDigits_append (fun d hd => hdigits.2 d (List.mem_cons_of_mem c hd)) hpos
        rw [Nat.toDigits_of_lt_base hlt, hchar] at hcs
        rw [Nat.ofDigitChars_cons]
        simpa using hcs
    next => cases hread
  · rintro ⟨hn, rfl⟩
    exact ⟨(leadingZero_toDigits n).trans (decide_eq_false hn), ofDigits?_toDigits n⟩

theorem ofDigits?_canonical {cs : List Char} {n : Nat} :
    (cs == ['0'] || !leadingZero cs) = true ∧ ofDigits? cs = some n ↔ cs = Nat.toDigits 10 n := by
  by_cases hcs : cs = ['0']
  · subst hcs
    have hzero : ofDigits? ['0'] = some 0 := by decide
    rw [hzero]
    constructor
    · rintro ⟨-, h⟩
      obtain rfl := Option.some.inj h
      rfl
    · intro h
      have hn : leadingZero (Nat.toDigits 10 n) = true := h ▸ rfl
      rw [leadingZero_toDigits, decide_eq_true_eq] at hn
      exact ⟨rfl, congrArg some hn.symm⟩
  · rw [beq_eq_false_iff_ne.2 hcs, Bool.false_or, Bool.not_eq_true', ofDigits?_positive]
    refine ⟨And.right, fun h => ⟨?_, h⟩⟩
    rintro rfl
    exact hcs h

/-! ## Integers of 64 bits -/

theorem inRange?_eq_some_iff {m : Int} {n : Int64} : inRange? m = some n ↔ m = n.toInt := by
  unfold inRange?
  rw [Int64.toInt_minValue, Int64.toInt_maxValue]
  constructor
  · intro h
    split at h
    next hrange =>
      obtain rfl := Option.some.inj h
      exact (Int64.toInt_ofInt_of_le hrange.1 (by omega)).symm
    next => cases h
  · rintro rfl
    have hlow := n.le_toInt
    have hhigh := n.toInt_lt
    rw [if_pos ⟨hlow, by omega⟩, Int64.ofInt_toInt]

/-! ## Written integers -/

theorem toList_write_of_nonneg {n : Int64} (h : 0 ≤ n.toInt) :
    (write n).toList = Nat.toDigits 10 n.toInt.toNat := by
  unfold write
  rw [Int.toString_eq_repr, Int.repr_eq_if, if_pos h, Nat.toList_repr]

theorem toList_write_of_neg {n : Int64} (h : n.toInt < 0) :
    (write n).toList = '-' :: Nat.toDigits 10 (-n.toInt).toNat := by
  unfold write
  rw [Int.toString_eq_repr, Int.repr_eq_if, if_neg (by omega), String.toList_append,
    Nat.toList_repr]
  rfl

/-- Digits are what is written for the natural numbers. -/
theorem toDigits_eq_toList_write_iff {cs : List Char} (hcs : ∀ ds, cs ≠ '-' :: ds) {n : Int64} :
    (∃ m : Nat, cs = Nat.toDigits 10 m ∧ (m : Int) = n.toInt) ↔ cs = (write n).toList := by
  by_cases hn : 0 ≤ n.toInt
  · rw [toList_write_of_nonneg hn]
    constructor
    · rintro ⟨m, rfl, hm⟩
      rw [← hm, Int.toNat_natCast]
    · intro h
      exact ⟨n.toInt.toNat, h, Int.toNat_of_nonneg hn⟩
  · rw [toList_write_of_neg (by omega)]
    refine ⟨?_, fun h => absurd h (hcs _)⟩
    rintro ⟨m, -, hm⟩
    omega

/-- Digits of a positive number after a minus sign are what is written for the others. -/
theorem minus_toDigits_eq_toList_write_iff {cs : List Char} {n : Int64} :
    (∃ m : Nat, (m ≠ 0 ∧ cs = Nat.toDigits 10 m) ∧ -(m : Int) = n.toInt) ↔
      '-' :: cs = (write n).toList := by
  by_cases hn : 0 ≤ n.toInt
  · rw [toList_write_of_nonneg hn]
    constructor
    · rintro ⟨m, ⟨hm, -⟩, hmn⟩
      omega
    · intro h
      have hminus : '-'.isDigit = true :=
        Nat.isDigit_of_mem_toDigits (by decide) (by decide) (h ▸ List.mem_cons_self)
      exact absurd hminus (by decide)
  · rw [toList_write_of_neg (by omega), List.cons.injEq]
    constructor
    · rintro ⟨m, ⟨-, rfl⟩, hmn⟩
      rw [← hmn, Int.neg_neg, Int.toNat_natCast]
      exact ⟨rfl, rfl⟩
    · rintro ⟨-, rfl⟩
      exact ⟨(-n.toInt).toNat, ⟨by omega, rfl⟩, by omega⟩

/-- The canonical reader accepts what is written, and nothing else. -/
theorem canonical?_eq_some_iff {s : String} {n : Int64} : canonical? s = some n ↔ s = write n := by
  have hsplit : canonical? s = some n ↔
      canonicalShape s.toList = true ∧ plainIn? s.toList = some n := by
    unfold canonical? plain?
    split <;> simp [*]
  rw [hsplit, ← String.toList_inj]
  generalize s.toList = cs
  by_cases hminus : ∃ ds, cs = '-' :: ds
  · obtain ⟨ds, rfl⟩ := hminus
    rw [← minus_toDigits_eq_toList_write_iff, canonicalShape, plainIn?]
    simp only [Option.bind_eq_some_iff, inRange?_eq_some_iff, ← ofDigits?_positive,
      Bool.not_eq_true']
    constructor
    · rintro ⟨hshape, m, hm, hn⟩
      exact ⟨m, ⟨hshape, hm⟩, hn⟩
    · rintro ⟨m, ⟨hshape, hm⟩, hn⟩
      exact ⟨hshape, m, hm, hn⟩
  · have hcs : ∀ ds, cs ≠ '-' :: ds := fun ds h => hminus ⟨ds, h⟩
    rw [← toDigits_eq_toList_write_iff hcs, canonicalShape.eq_2 cs hcs, plainIn?.eq_2 cs hcs]
    simp only [Option.bind_eq_some_iff, inRange?_eq_some_iff, ← ofDigits?_canonical]
    constructor
    · rintro ⟨hshape, m, hm, hn⟩
      exact ⟨m, ⟨hshape, hm⟩, hn⟩
    · rintro ⟨m, ⟨hshape, hm⟩, hn⟩
      exact ⟨hshape, m, hm, hn⟩

theorem canonical?_write (n : Int64) : canonical? (write n) = some n :=
  canonical?_eq_some_iff.2 rfl

theorem plain?_write (n : Int64) : plain? (write n) = some n := by
  have hread := canonical?_write n
  unfold canonical? at hread
  split at hread
  next => exact hread
  next => cases hread

/-- A text that is read without a plus sign is read as the same integer where one may stand. -/
theorem signed?_of_plain? {s : String} {n : Int64} (h : plain? s = some n) : signed? s = some n := by
  unfold plain? at h
  unfold signed?
  split
  next cs hcs =>
    rw [hcs] at h
    cases h
  next => exact h

theorem signed?_write (n : Int64) : signed? (write n) = some n := signed?_of_plain? (plain?_write n)

theorem mem_write {n : Int64} {c : Char} (h : c ∈ (write n).toList) : c = '-' ∨ c.isDigit = true := by
  by_cases hn : 0 ≤ n.toInt
  · rw [toList_write_of_nonneg hn] at h
    exact Or.inr (Nat.isDigit_of_mem_toDigits (by decide) (by decide) h)
  · rw [toList_write_of_neg (by omega), List.mem_cons] at h
    exact h.imp_right (Nat.isDigit_of_mem_toDigits (by decide) (by decide))

theorem trim_write (n : Int64) : Text.trim (write n) = write n := by
  refine Text.trim_eq_self_iff.2 (Text.trimmed_of_forall fun c hc => Text.isBlank_of_visible ?_)
  obtain rfl | hdigit := mem_write hc
  · decide
  · simp only [Char.isDigit, Bool.and_eq_true, decide_eq_true_eq, ge_iff_le,
      UInt32.le_iff_toNat_le] at hdigit
    exact ⟨Nat.le_trans (by decide) hdigit.1, Nat.le_trans hdigit.2 (by decide)⟩

end SqlStatement.Integer
