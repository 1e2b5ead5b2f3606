import Mathlib.Data.List.Forall2
import Mathlib.Data.List.Induction
import SqlStatement.Entries

/-!
# Keys and entries after insertions

* `find?_insert_self`, `find?_insert_of_ne`, `find?_merge` : the entry of a key after one insertion
  and after many, the last entry of a key prevailing;
* `keys_merge` : the keys after many insertions depend on the keys alone;
* `forall₂_insert`, `map_insert` : related entries inserted into related lists.
-/

namespace SqlStatement.Entries

variable {ε κ : Type} [HasKey ε κ]

/-! ## Looking up -/

theorem mem_keys {k : κ} {es : List ε} : k ∈ keys es ↔ ∃ e ∈ es, HasKey.key? e = some k := by
  unfold keys
  rw [List.mem_filterMap]

theorem keys_append (es fs : List ε) : keys (es ++ fs) = keys es ++ keys fs := by
  unfold keys
  rw [List.filterMap_append]

theorem nodup_keys_of_cons {e : ε} {es : List ε} (h : (keys (e :: es)).Nodup) :
    (∀ k, HasKey.key? e = some k → k ∉ keys es) ∧ (keys es).Nodup := by
  unfold keys at h ⊢
  cases he : HasKey.key? e with
  | none =>
    rw [List.filterMap_cons_none he] at h
    exact ⟨fun k hk => absurd hk (Option.some_ne_none k).symm, h⟩
  | some j =>
    rw [List.filterMap_cons_some he, List.nodup_cons] at h
    exact ⟨fun k hk => Option.some.inj hk ▸ h.1, h.2⟩

variable [DecidableEq κ]

theorem hasKey_iff {k : κ} {e : ε} : hasKey k e = true ↔ HasKey.key? e = some k := by
  simp [hasKey]

theorem find?_nil (k : κ) : find? k ([] : List ε) = none := rfl

theorem find?_cons_self {k : κ} {e : ε} (he : HasKey.key? e = some k) (es : List ε) :
    find? k (e :: es) = some e := by
  unfold find?
  rw [List.find?_cons_of_pos]
  exact hasKey_iff.2 he

theorem find?_cons_of_ne {k : κ} {e : ε} (he : HasKey.key? e ≠ some k) (es : List ε) :
    find? k (e :: es) = find? k es := by
  unfold find?
  rw [List.find?_cons_of_neg]
  rw [hasKey_iff]
  exact he

theorem find?_append (k : κ) (es fs : List ε) :
    find? k (es ++ fs) = (find? k es).or (find? k fs) :=
  List.find?_append

theorem find?_eq_none_iff {k : κ} {es : List ε} : find? k es = none ↔ k ∉ keys es := by
  unfold find?
  rw [List.find?_eq_none, mem_keys]
  simp only [hasKey_iff, not_exists, not_and]

theorem mem_of_find? {k : κ} {e : ε} {es : List ε} (h : find? k es = some e) :
    e ∈ es ∧ HasKey.key? e = some k :=
  ⟨List.mem_of_find?_eq_some h, hasKey_iff.1 (List.find?_some h)⟩

theorem contains_iff_mem_keys {k : κ} {es : List ε} : contains k es = true ↔ k ∈ keys es := by
  unfold contains
  rw [List.any_eq_true, mem_keys]
  simp only [hasKey_iff]

theorem find?_of_mem {k : κ} {e : ε} {es : List ε} (hn : (keys es).Nodup) (hm : e ∈ es)
    (he : HasKey.key? e = some k) : find? k es = some e := by
  induction es with
  | nil => exact absurd hm List.not_mem_nil
  | cons x xs ih =>
    obtain ⟨hx, hxs⟩ := nodup_keys_of_cons hn
    by_cases hxk : HasKey.key? x = some k
    · obtain rfl | hm := List.mem_cons.1 hm
      · exact find?_cons_self he xs
      · exact absurd (mem_keys.2 ⟨e, hm, he⟩) (hx k hxk)
    · rw [find?_cons_of_ne hxk]
      obtain rfl | hm := List.mem_cons.1 hm
      · exact absurd he hxk
      · exact ih hxs hm

/-! ## One insertion -/

theorem find?_insert_self {k : κ} {e : ε} (he : HasKey.key? e = some k) (es : List ε) :
    find? k (insert es e) = some e := by
  unfold insert
  rw [he]
  exact find?_replace_self he es

theorem find?_insert_of_ne {k : κ} {e : ε} (he : HasKey.key? e ≠ some k) (es : List ε) :
    find? k (insert es e) = find? k es := by
  unfold insert
  cases hj : HasKey.key? e with
  | none =>
    rw [find?_append, find?_cons_of_ne he, find?_nil, Option.or_none]
  | some j =>
    have hkj : k ≠ j := by
      rintro rfl
      exact he hj
    exact find?_replace_of_ne hj hkj es

theorem replace_eq_append {k : κ} (e : ε) {es : List ε} (hk : k ∉ keys es) :
    replace k e es = es ++ [e] := by
  induction es with
  | nil => rfl
  | cons x xs ih =>
    have hx : HasKey.key? x ≠ some k := fun h => hk (mem_keys.2 ⟨x, List.mem_cons_self, h⟩)
    have hxs : k ∉ keys xs := by
      intro h
      obtain ⟨y, hy, hyk⟩ := mem_keys.1 h
      exact hk (mem_keys.2 ⟨y, List.mem_cons_of_mem x hy, hyk⟩)
    unfold replace
    rw [if_neg (by rw [hasKey_iff]; exact hx), ih hxs, List.cons_append]

theorem insert_cons_self {k : κ} {x e : ε} (hx : HasKey.key? x = some k)
    (he : HasKey.key? e = some k) (es : List ε) : insert (x :: es) e = e :: es := by
  unfold insert
  rw [he]
  show (if hasKey k x then e :: es else x :: replace k e es) = e :: es
  rw [if_pos (hasKey_iff.2 hx)]

theorem insert_cons_of_ne {k : κ} {x e : ε} (hx : HasKey.key? x ≠ some k)
    (he : HasKey.key? e = some k) (es : List ε) : insert (x :: es) e = x :: insert es e := by
  unfold insert
  rw [he]
  show (if hasKey k x then e :: es else x :: replace k e es) = x :: replace k e es
  rw [if_neg (by rw [hasKey_iff]; exact hx)]

theorem insert_eq_append {e : ε} {es : List ε}
    (h : ∀ k, HasKey.key? e = some k → k ∉ keys es) : insert es e = es ++ [e] := by
  unfold insert
  cases he : HasKey.key? e with
  | none => rfl
  | some k => exact replace_eq_append e (h k he)

/-- An entry that is there already changes nothing. -/
theorem replace_eq_self {k : κ} {e : ε} {es : List ε} (h : find? k es = some e) :
    replace k e es = es := by
  induction es with
  | nil => cases h
  | cons x xs ih =>
    unfold replace
    by_cases hx : HasKey.key? x = some k
    · rw [if_pos (hasKey_iff.2 hx)]
      rw [find?_cons_self hx, Option.some.injEq] at h
      rw [h]
    · rw [if_neg (by rw [hasKey_iff]; exact hx)]
      rw [find?_cons_of_ne hx] at h
      rw [ih h]

theorem insert_eq_self {k : κ} {e : ε} {es : List ε} (h : find? k es = some e) :
    insert es e = es := by
  unfold insert
  rw [(mem_of_find? h).2]
  exact replace_eq_self h

theorem mem_replace {k : κ} {e x : ε} {es : List ε} (hx : x ∈ replace k e es) :
    x = e ∨ x ∈ es := by
  induction es with
  | nil => exact Or.inl (List.mem_singleton.1 hx)
  | cons y ys ih =>
    unfold replace at hx
    by_cases hy : hasKey k y = true
    · rw [if_pos hy] at hx
      rcases List.mem_cons.1 hx with rfl | hx
      · exact Or.inl rfl
      · exact Or.inr (List.mem_cons_of_mem y hx)
    · rw [if_neg hy] at hx
      rcases List.mem_cons.1 hx with rfl | hx
      · exact Or.inr List.mem_cons_self
      · rcases ih hx with rfl | hx
        · exact Or.inl rfl
        · exact Or.inr (List.mem_cons_of_mem y hx)

theorem mem_insert {e x : ε} {es : List ε} (hx : x ∈ insert es e) :
    x = e ∨ x ∈ es := by
  unfold insert at hx
  rcases hk : HasKey.key? e with _ | k
  · rw [hk] at hx
    rcases List.mem_append.1 hx with hx | hx
    · exact Or.inr hx
    · exact Or.inl (List.mem_singleton.1 hx)
  · rw [hk] at hx
    exact mem_replace hx

/-! ## Many insertions -/

theorem eraseDups_snoc (ks : List κ) (k : κ) :
    (ks ++ [k]).eraseDups = addKey ks.eraseDups k := by
  rw [List.eraseDups_append]
  unfold addKey
  by_cases h : k ∈ ks <;> simp [List.removeAll, List.eraseDups_cons, h]

theorem foldl_addKey_nil (ks : List κ) : ks.foldl addKey [] = ks.eraseDups := by
  induction ks using List.reverseRecOn with
  | nil => rfl
  | append_singleton ks k ih =>
    rw [List.foldl_append, ih, eraseDups_snoc]
    rfl

theorem nodup_eraseDups (ks : List κ) : ks.eraseDups.Nodup := by
  induction ks using List.reverseRecOn with
  | nil => exact List.nodup_nil
  | append_singleton ks k ih =>
    rw [eraseDups_snoc]
    exact nodup_addKey ih k

/-- The keys after insertions are determined by the keys before and those of the entries. -/
theorem keys_merge (es fs : List ε) : keys (merge es fs) = (keys fs).foldl addKey (keys es) := by
  induction fs generalizing es with
  | nil => rfl
  | cons f fs ih =>
    rw [merge_cons, ih]
    cases hf : HasKey.key? f with
    | none =>
      rw [keys_insert_keyless hf]
      unfold keys
      rw [List.filterMap_cons_none hf]
    | some k =>
      rw [keys_insert hf]
      unfold keys
      rw [List.filterMap_cons_some hf, List.foldl_cons]

theorem mem_keys_merge {k : κ} {es fs : List ε} :
    k ∈ keys (merge es fs) ↔ k ∈ keys es ∨ k ∈ keys fs := by
  rw [keys_merge]
  generalize keys es = ks
  induction keys fs generalizing ks with
  | nil => simp
  | cons j js ih =>
    rw [List.foldl_cons, ih, mem_addKey, List.mem_cons, or_assoc]

/-- Of two entries with one key the one inserted later is found. -/
theorem find?_merge {fs : List ε} (hn : (keys fs).Nodup) (k : κ) (es : List ε) :
    find? k (merge es fs) = (find? k fs).or (find? k es) := by
  induction fs generalizing es with
  | nil => rfl
  | cons f fs ih =>
    obtain ⟨hnew, hfs⟩ := nodup_keys_of_cons hn
    rw [merge_cons, ih hfs]
    by_cases hf : HasKey.key? f = some k
    · rw [find?_eq_none_iff.2 (hnew k hf), find?_insert_self hf, find?_cons_self hf,
        Option.none_or, Option.some_or]
    · rw [find?_insert_of_ne hf, find?_cons_of_ne hf]

theorem merge_eq_append {es fs : List ε} (hn : (keys (es ++ fs)).Nodup) :
    merge es fs = es ++ fs := by
  induction fs generalizing es with
  | nil => rw [merge_nil, List.append_nil]
  | cons f fs ih =>
    have hf : insert es f = es ++ [f] := by
      refine insert_eq_append fun k hk hm => ?_
      rw [keys_append, List.nodup_append] at hn
      exact hn.2.2 k hm k (mem_keys.2 ⟨f, List.mem_cons_self, hk⟩) rfl
    rw [List.append_cons] at hn
    rw [merge_cons, hf, ih hn, List.append_assoc, List.singleton_append]

theorem merge_eq_self {es fs : List ε}
    (h : ∀ f ∈ fs, ∃ k, find? k es = some f) : merge es fs = es := by
  induction fs with
  | nil => rfl
  | cons f fs ih =>
    obtain ⟨k, hk⟩ := h f List.mem_cons_self
    rw [merge_cons, insert_eq_self hk]
    exact ih fun g hg => h g (List.mem_cons_of_mem f hg)

theorem merge_cons_of_ne {x : ε} {fs : List ε}
    (h : ∀ f ∈ fs, ∃ k, HasKey.key? f = some k ∧ HasKey.key? x ≠ some k) (es : List ε) :
    merge (x :: es) fs = x :: merge es fs := by
  induction fs generalizing es with
  | nil => rfl
  | cons f fs ih =>
    obtain ⟨k, hf, hx⟩ := h f List.mem_cons_self
    rw [merge_cons, merge_cons, insert_cons_of_ne hx hf]
    exact ih (fun g hg => h g (List.mem_cons_of_mem f hg)) (insert es f)

theorem mem_merge {x : ε} {es fs : List ε} (hx : x ∈ merge es fs) :
    x ∈ es ∨ x ∈ fs := by
  induction fs generalizing es with
  | nil => exact Or.inl hx
  | cons f fs ih =>
    rcases ih hx with hx | hx
    · rcases mem_insert hx with rfl | hx
      · exact Or.inr List.mem_cons_self
      · exact Or.inl hx
    · exact Or.inr (List.mem_cons_of_mem f hx)

theorem mem_ofList {x : ε} {fs : List ε} (hx : x ∈ ofList fs) : x ∈ fs := by
  rcases mem_merge hx with hx | hx
  · cases hx
  · exact hx

/-! ## Related entries -/

section Related

variable {δ : Type} [HasKey δ κ] {R : ε → δ → Prop}

theorem forall₂_replace (hR : ∀ e f, R e f → HasKey.key? e = HasKey.key? f) (k : κ) {e : ε}
    {f : δ} (hef : R e f) {es : List ε} {fs : List δ} (h : List.Forall₂ R es fs) :
    List.Forall₂ R (replace k e es) (replace k f fs) := by
  induction h with
  | nil => exact .cons hef .nil
  | @cons x y xs ys hxy hs ih =>
    unfold replace hasKey
    rw [hR x y hxy]
    split
    next => exact .cons hef hs
    next => exact .cons hxy ih

theorem forall₂_insert (hR : ∀ e f, R e f → HasKey.key? e = HasKey.key? f) {e : ε} {f : δ}
    (hef : R e f) {es : List ε} {fs : List δ} (h : List.Forall₂ R es fs) :
    List.Forall₂ R (insert es e) (insert fs f) := by
  unfold insert
  rw [hR e f hef]
  cases HasKey.key? f with
  | none => exact List.rel_append h (.cons hef .nil)
  | some k => exact forall₂_replace hR k hef h

/-- Entries that are changed under their keys may be changed before an insertion or after it. -/
theorem map_insert {f : ε → δ} (hf : ∀ e, HasKey.key? (f e) = HasKey.key? e) (es : List ε) (e : ε) :
    (insert es e).map f = insert (es.map f) (f e) := by
  have hR : ∀ x y, f x = y → HasKey.key? x = HasKey.key? y := by
    rintro x y rfl
    exact (hf x).symm
  have hes : List.Forall₂ (f · = ·) es (es.map f) := by
    rw [List.forall₂_map_right_iff, List.forall₂_same]
    exact fun x _ => rfl
  have h := forall₂_insert hR (rfl : f e = f e) hes
  rwa [← List.forall₂_map_left_iff, List.forall₂_eq_eq_eq] at h

theorem map_merge {f : ε → δ} (hf : ∀ e, HasKey.key? (f e) = HasKey.key? e) (es fs : List ε) :
    (merge es fs).map f = merge (es.map f) (fs.map f) := by
  induction fs generalizing es with
  | nil => rfl
  | cons e fs ih =>
    rw [merge_cons, ih, map_insert hf, List.map_cons, merge_cons]

omit [DecidableEq κ] in
theorem keys_map {f : ε → δ} (hf : ∀ e, HasKey.key? (f e) = HasKey.key? e) (es : List ε) :
    keys (es.map f) = keys es := by
  unfold keys
  rw [List.filterMap_map]
  exact congrArg (es.filterMap ·) (funext hf)

end Related

end SqlStatement.Entries
