import Mathlib.Data.List.Induction
import SqlStatement.Proofs.Entries

/-!
# Entries in the order of their first places

Entries that are inserted one after the other come out with each key at its first place only, and
there with its last entry. Entries without a key all stay.

* `Entries.firsts`, `Entries.latest` : the first entry of each key, and the last one;
* `Entries.merge_eq`, `Entries.ofList_eq` : many insertions.
-/

namespace SqlStatement.Entries

variable {ε κ : Type} [DecidableEq κ] [HasKey ε κ]

def sameKey (e f : ε) : Bool := (HasKey.key? e).isSome && decide (HasKey.key? e = HasKey.key? f)

/-- Whether the entry has no key, or one that is not among those of the list. -/
def isNew (es : List ε) (e : ε) : Bool := (HasKey.key? e).all fun k => decide (k ∉ keys es)

/-- The list without the entries whose key stands before them already. -/
def firsts : List ε → List ε
  | [] => []
  | e :: es => e :: (firsts es).filter (!sameKey e ·)

/-- The last entry of the list with the key of `e`, or `e` if there is none. -/
def latest (es : List ε) (e : ε) : ε := (es.reverse.find? (sameKey e)).getD e

/-! ## Entries with one key -/

variable {e f : ε} {es fs : List ε}

theorem sameKey_iff : sameKey e f = true ↔ ∃ k, HasKey.key? e = some k ∧ HasKey.key? f = some k := by
  unfold sameKey
  rw [Bool.and_eq_true, decide_eq_true_eq, Option.isSome_iff_exists]
  constructor
  · rintro ⟨⟨k, he⟩, hef⟩
    exact ⟨k, he, hef ▸ he⟩
  · rintro ⟨k, he, hf⟩
    exact ⟨⟨k, he⟩, he.trans hf.symm⟩

theorem sameKey_comm (e f : ε) : sameKey e f = sameKey f e := by
  rw [Bool.eq_iff_iff, sameKey_iff, sameKey_iff]
  simp only [and_comm]

theorem sameKey_congr (h : HasKey.key? e = HasKey.key? f) (g : ε) : sameKey g e = sameKey g f := by
  unfold sameKey
  rw [h]

theorem isNew_iff : isNew es e = true ↔ ∀ f ∈ es, sameKey e f = false := by
  unfold isNew
  rw [Option.all_eq_true]
  simp only [decide_eq_true_eq, mem_keys, not_exists, not_and, Bool.eq_false_iff, ne_eq,
    sameKey_iff]
  exact ⟨fun h f hf k he hfk => h k he f hf hfk, fun h k he f hf hfk => h f hf k he hfk⟩

theorem isNew_of_keyless (he : HasKey.key? e = none) (es : List ε) : isNew es e = true := by
  unfold isNew
  rw [he]
  rfl

theorem isNew_append (es fs : List ε) (e : ε) : isNew (es ++ fs) e = (isNew es e && isNew fs e) := by
  rw [Bool.eq_iff_iff, Bool.and_eq_true, isNew_iff, isNew_iff, isNew_iff]
  exact List.forall_mem_append

theorem isNew_merge (es fs : List ε) (e : ε) : isNew (merge es fs) e = isNew (es ++ fs) e := by
  unfold isNew
  simp only [mem_keys_merge, keys_append, List.mem_append]

/-! ## The last entry of a key -/

theorem latest_snoc (fs : List ε) (f e : ε) :
    latest (fs ++ [f]) e = if sameKey f e then f else latest fs e := by
  unfold latest
  rw [List.reverse_append, List.reverse_singleton, List.singleton_append, List.find?_cons,
    sameKey_comm f e]
  cases sameKey e f <;> rfl

theorem latest_of_isNew (h : isNew fs e = true) : latest fs e = e := by
  have hnone : fs.reverse.find? (sameKey e) = none := by
    rw [List.find?_eq_none]
    intro f hf
    rw [isNew_iff.1 h f (List.mem_reverse.1 hf)]
    exact Bool.false_ne_true
  unfold latest
  rw [hnone]
  rfl

theorem key?_latest (es : List ε) (e : ε) : HasKey.key? (latest es e) = HasKey.key? e := by
  unfold latest
  cases hfind : es.reverse.find? (sameKey e) with
  | none => rfl
  | some f =>
    obtain ⟨k, he, hf⟩ := sameKey_iff.1 (List.find?_some hfind)
    exact hf.trans he.symm

/-! ## First places -/

theorem firsts_snoc (fs : List ε) (f : ε) :
    firsts (fs ++ [f]) = if isNew fs f then firsts fs ++ [f] else firsts fs := by
  induction fs with
  | nil =>
    have hnew : isNew [] f = true := isNew_iff.2 fun _ h => absurd h List.not_mem_nil
    rw [if_pos hnew]
    rfl
  | cons e fs ih =>
    have hnew : isNew (e :: fs) f = (!sameKey e f && isNew fs f) := by
      rw [sameKey_comm, Bool.eq_iff_iff, Bool.and_eq_true, isNew_iff, isNew_iff, Bool.not_eq_true']
      exact List.forall_mem_cons
    rw [List.cons_append, firsts, ih, hnew, firsts]
    cases hsame : sameKey e f <;> cases isNew fs f <;> simp [hsame]

theorem firsts_of_nodup (h : (keys fs).Nodup) : firsts fs = fs := by
  induction fs with
  | nil => rfl
  | cons e fs ih =>
    obtain ⟨he, hfs⟩ := nodup_keys_of_cons h
    rw [firsts, ih hfs, List.filter_eq_self.2]
    intro f hf
    rw [Bool.not_eq_true', Bool.eq_false_iff, ne_eq, sameKey_iff]
    rintro ⟨k, hk, hfk⟩
    exact he k hk (mem_keys.2 ⟨f, hf, hfk⟩)

theorem latest_of_sameKey (h : (keys fs).Nodup) (hf : f ∈ fs) (hef : sameKey e f = true) :
    latest fs e = f := by
  obtain ⟨k, he, hfk⟩ := sameKey_iff.1 hef
  unfold latest
  cases hfind : fs.reverse.find? (sameKey e) with
  | none => exact absurd hef (List.find?_eq_none.1 hfind f (List.mem_reverse.2 hf))
  | some g =>
    have hg : g ∈ fs := List.mem_reverse.1 (List.mem_of_find?_eq_some hfind)
    obtain ⟨j, hj, hgj⟩ := sameKey_iff.1 (List.find?_some hfind)
    have hgk : HasKey.key? g = some k := hgj.trans (hj.symm.trans he)
    exact Option.some.inj ((find?_of_mem h hg hgk).symm.trans (find?_of_mem h hf hfk))

theorem latest_of_mem (h : (keys fs).Nodup) (hf : f ∈ fs) : latest fs f = f := by
  obtain hkey | ⟨k, hk⟩ := Option.eq_none_or_eq_some (HasKey.key? f)
  · exact latest_of_isNew (isNew_of_keyless hkey fs)
  · exact latest_of_sameKey h hf (sameKey_iff.2 ⟨k, hk, hk⟩)

/-! ## Insertions -/

/-- Where keys are different, an entry is put in place of the one with its key. -/
theorem replace_eq_map {k : κ} (h : (keys es).Nodup) (hk : k ∈ keys es) (f : ε) :
    replace k f es = es.map fun e => if hasKey k e then f else e := by
  induction es with
  | nil => cases hk
  | cons x xs ih =>
    obtain ⟨hx, hxs⟩ := nodup_keys_of_cons h
    rw [replace, List.map_cons]
    by_cases hxk : hasKey k x = true
    · -- no entry after this one has the key
      have hrest : ∀ y ∈ xs, (if hasKey k y then f else y) = y := by
        intro y hy
        refine if_neg fun hyk => hx k (hasKey_iff.1 hxk) ?_
        exact mem_keys.2 ⟨y, hy, hasKey_iff.1 hyk⟩
      rw [if_pos hxk, if_pos hxk, List.map_congr_left hrest, List.map_id']
    · have hkxs : k ∈ keys xs := by
        obtain ⟨y, hy, hyk⟩ := mem_keys.1 hk
        rcases List.mem_cons.1 hy with rfl | hy
        · exact absurd (hasKey_iff.2 hyk) hxk
        · exact mem_keys.2 ⟨y, hy, hyk⟩
      rw [if_neg hxk, if_neg hxk, ih hxs hkxs]

/-- An entry with a new key goes to the end, any other takes the place of the one with its key. -/
theorem insert_eq (h : (keys es).Nodup) (f : ε) :
    insert es f = if isNew es f then es ++ [f] else es.map fun e => if sameKey f e then f else e := by
  obtain hf | ⟨k, hf⟩ := Option.eq_none_or_eq_some (HasKey.key? f)
  · rw [if_pos (isNew_of_keyless hf es)]
    unfold insert
    rw [hf]
  · have hsame : ∀ e : ε, sameKey f e = hasKey k e := by
      intro e
      rw [Bool.eq_iff_iff, sameKey_iff, hasKey_iff, hf]
      simp
    have hnew : isNew es f = true ↔ k ∉ keys es := by
      unfold isNew
      rw [hf]
      exact decide_eq_true_iff
    unfold insert
    simp only [hf, hsame]
    split_ifs with hif
    · exact replace_eq_append f (hnew.1 hif)
    · exact replace_eq_map h (not_not.1 (hnew.not.1 hif)) f

theorem merge_append (es fs gs : List ε) : merge es (fs ++ gs) = merge (merge es fs) gs :=
  List.foldl_append ..

theorem map_latest_snoc (fs : List ε) (f : ε) (es : List ε) :
    es.map (latest (fs ++ [f])) = (es.map (latest fs)).map fun e => if sameKey f e then f else e := by
  rw [List.map_map]
  refine List.map_congr_left fun e _ => ?_
  show latest (fs ++ [f]) e = if sameKey f (latest fs e) then f else latest fs e
  rw [latest_snoc, sameKey_congr (key?_latest fs e)]

theorem filter_firsts_snoc (es fs : List ε) (f : ε) :
    (firsts (fs ++ [f])).filter (isNew es) =
      (firsts fs).filter (isNew es) ++ if isNew es f && isNew fs f then [f] else [] := by
  rw [firsts_snoc]
  cases hes : isNew es f <;> cases isNew fs f <;> simp [hes]

/-- Insertions keep the entries that were there and add those with new keys, each key with its last
entry. -/
theorem merge_eq (h : (keys es).Nodup) (fs : List ε) :
    merge es fs = (es ++ (firsts fs).filter (isNew es)).map (latest fs) := by
  induction fs using List.reverseRecOn with
  | nil =>
    have hlatest : ∀ e ∈ es, latest [] e = e := fun e _ => rfl
    rw [merge_nil, firsts, List.filter_nil, List.append_nil, List.map_congr_left hlatest,
      List.map_id']
  | append_singleton fs f ih =>
    have hnodup : (keys (merge es fs)).Nodup := nodup_keys_merge h fs
    have hsnoc : merge es (fs ++ [f]) = insert (merge es fs) f := merge_append es fs [f]
    rw [hsnoc, insert_eq hnodup, isNew_merge, isNew_append, filter_firsts_snoc, map_latest_snoc,
      ← List.append_assoc, List.map_append, ← ih]
    split_ifs with hnew
    · -- no entry has the key
      have hother : ∀ e ∈ merge es fs, (if sameKey f e then f else e) = e := by
        rw [← isNew_append, ← isNew_merge, isNew_iff] at hnew
        intro e he
        rw [hnew e he, if_neg Bool.false_ne_true]
      have hf : latest fs f = f := latest_of_isNew (Bool.and_eq_true _ _ ▸ hnew).2
      rw [List.map_append, List.map_congr_left hother, List.map_id', List.map_singleton, hf,
        List.map_singleton, ite_self]
    · rw [List.map_nil, List.append_nil]

/-- Entries inserted one after the other: each key at its first place, with its last entry. -/
theorem ofList_eq (fs : List ε) : ofList fs = (firsts fs).map (latest fs) := by
  have hnew : ∀ f ∈ firsts fs, isNew [] f = true := fun f _ =>
    isNew_iff.2 fun _ h => absurd h List.not_mem_nil
  have hnil : (keys ([] : List ε)).Nodup := List.nodup_nil
  have hmerge := merge_eq hnil fs
  rwa [List.nil_append, List.filter_eq_self.2 hnew] at hmerge

theorem ofList_of_nodup (h : (keys fs).Nodup) : ofList fs = fs := by
  rw [ofList_eq, firsts_of_nodup h, List.map_congr_left fun f hf => latest_of_mem h hf, List.map_id']

theorem ofList_snoc (fs : List ε) (f : ε) : ofList (fs ++ [f]) = insert (ofList fs) f :=
  merge_append [] fs [f]

theorem merge_eq_ofList (h : (keys es).Nodup) (fs : List ε) : merge es fs = ofList (es ++ fs) := by
  show merge es fs = merge [] (es ++ fs)
  rw [merge_append]
  exact congrArg (merge · fs) (ofList_of_nodup h).symm

/-- Entries with different keys inserted into others: those with a key that is there take its place,
the rest goes to the end. -/
theorem merge_eq_of_nodup (h : (keys es).Nodup) (hfs : (keys fs).Nodup) :
    merge es fs = es.map (latest fs) ++ fs.filter (isNew es) := by
  have hlast : ∀ f ∈ fs.filter (isNew es), latest fs f = f := fun f hf =>
    latest_of_mem hfs (List.mem_filter.1 hf).1
  rw [merge_eq h, firsts_of_nodup hfs, List.map_append, List.map_congr_left hlast, List.map_id']

/-! ## What is in the result -/

theorem find?_ofList (k : κ) (fs : List ε) : find? k (ofList fs) = find? k fs.reverse := by
  induction fs using List.reverseRecOn with
  | nil => rfl
  | append_singleton fs f ih =>
    rw [ofList_snoc, List.reverse_append, List.reverse_singleton, List.singleton_append]
    by_cases hf : HasKey.key? f = some k
    · rw [find?_insert_self hf, find?_cons_self hf]
    · rw [find?_insert_of_ne hf, find?_cons_of_ne hf, ih]

omit [DecidableEq κ] in
def keyless (e : ε) : Bool := (HasKey.key? e).isNone

theorem filter_keyless_replace {k : κ} (hf : HasKey.key? f = some k) (es : List ε) :
    (replace k f es).filter keyless = es.filter keyless := by
  have hdrop : ∀ e : ε, HasKey.key? e = some k → ∀ xs : List ε,
      (e :: xs).filter keyless = xs.filter keyless := by
    intro e he xs
    refine List.filter_cons_of_neg ?_
    unfold keyless
    rw [he]
    exact Bool.false_ne_true
  induction es with
  | nil => exact hdrop f hf []
  | cons x xs ih =>
    rw [replace]
    by_cases hx : hasKey k x = true
    · rw [if_pos hx, hdrop f hf, hdrop x (hasKey_iff.1 hx)]
    · rw [if_neg hx, List.filter_cons, List.filter_cons, ih]

theorem filter_keyless_insert (es : List ε) (f : ε) :
    (insert es f).filter keyless = es.filter keyless ++ [f].filter keyless := by
  unfold insert
  cases hf : HasKey.key? f with
  | none => exact List.filter_append ..
  | some k =>
    have hkey : keyless f = false := by
      unfold keyless
      rw [hf]
      rfl
    show (replace k f es).filter keyless = _
    rw [filter_keyless_replace hf, List.filter_cons_of_neg (Bool.eq_false_iff.1 hkey),
      List.filter_nil, List.append_nil]

theorem filter_keyless_ofList (fs : List ε) : (ofList fs).filter keyless = fs.filter keyless := by
  induction fs using List.reverseRecOn with
  | nil => rfl
  | append_singleton fs f ih =>
    rw [ofList_snoc, filter_keyless_insert, ih, List.filter_append]

end SqlStatement.Entries
