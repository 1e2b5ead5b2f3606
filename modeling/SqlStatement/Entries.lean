/-!
# Ordered entries with keys

Parameters, conditions and assignments are kept as lists of entries in the order of their first
insertion. An entry may have a key. Inserting an entry whose key is taken puts it in place of the
older one; any other entry goes to the end.
-/

namespace SqlStatement

/-- Entries that may have a key. -/
class HasKey (ε : Type) (κ : outParam Type) where
  key? : ε → Option κ

instance {κ α : Type} : HasKey (κ × α) κ := ⟨fun e => some e.1⟩

namespace Entries

variable {ε κ : Type} [DecidableEq κ] [HasKey ε κ]

def hasKey (k : κ) (e : ε) : Bool := HasKey.key? e = some k

/-- Puts `e` in place of the entry with key `k`, or at the end. -/
def replace (k : κ) (e : ε) : List ε → List ε
  | [] => [e]
  | x :: xs => if hasKey k x then e :: xs else x :: replace k e xs

def insert (es : List ε) (e : ε) : List ε :=
  match HasKey.key? e with
  | some k => replace k e es
  | none => es ++ [e]

def merge (es fs : List ε) : List ε := fs.foldl insert es

def ofList (fs : List ε) : List ε := merge [] fs

def find? (k : κ) (es : List ε) : Option ε := es.find? (hasKey k)

def keys (es : List ε) : List κ := es.filterMap HasKey.key?

def contains (k : κ) (es : List ε) : Bool := es.any (hasKey k)

def addKey (ks : List κ) (k : κ) : List κ := if k ∈ ks then ks else ks ++ [k]

/-! ## Keys after an insertion -/

theorem mem_addKey {ks : List κ} {j k : κ} : j ∈ addKey ks k ↔ j ∈ ks ∨ j = k := by
  unfold addKey
  split
  next hk =>
    constructor
    · exact Or.inl
    · rintro (hj | rfl)
      · exact hj
      · exact hk
  next => simp

theorem nodup_addKey {ks : List κ} (h : ks.Nodup) (k : κ) : (addKey ks k).Nodup := by
  unfold addKey
  split
  next => exact h
  next hk =>
    rw [List.nodup_append]
    refine ⟨h, by simp, ?_⟩
    intro a ha b hb
    rw [List.mem_singleton] at hb
    subst hb
    rintro rfl
    exact hk ha

/-- The place of a key that is there already does not change. -/
theorem keys_replace {k : κ} {e : ε} (he : HasKey.key? e = some k) (es : List ε) :
    keys (replace k e es) = addKey (keys es) k := by
  induction es with
  | nil => simp [replace, keys, addKey, he]
  | cons x xs ih =>
    unfold replace
    by_cases hx : hasKey k x = true
    · have hxk : HasKey.key? x = some k := by simpa [hasKey] using hx
      simp [hx, keys, addKey, he, hxk]
    · have hxk : HasKey.key? x ≠ some k := by simpa [hasKey] using hx
      unfold keys at ih ⊢
      cases hj : HasKey.key? x with
      | none => simp [hx, List.filterMap_cons_none hj, ih]
      | some j =>
        have hkj : k ≠ j := fun h => hxk (h ▸ hj)
        simp only [hx, Bool.false_eq_true, if_false, List.filterMap_cons_some hj, ih]
        by_cases hm : k ∈ xs.filterMap HasKey.key?
        · simp [addKey, hm]
        · simp [addKey, hm, hkj]

theorem keys_insert {k : κ} {e : ε} (he : HasKey.key? e = some k) (es : List ε) :
    keys (insert es e) = addKey (keys es) k := by
  unfold insert
  rw [he]
  exact keys_replace he es

theorem keys_insert_keyless {e : ε} (he : HasKey.key? e = none) (es : List ε) :
    keys (insert es e) = keys es := by
  simp [insert, he, keys]

theorem nodup_keys_insert {es : List ε} (h : (keys es).Nodup) (e : ε) :
    (keys (insert es e)).Nodup := by
  cases he : HasKey.key? e with
  | none =>
    rw [keys_insert_keyless he]
    exact h
  | some k =>
    rw [keys_insert he]
    exact nodup_addKey h k

theorem nodup_keys_merge {es : List ε} (h : (keys es).Nodup) (fs : List ε) :
    (keys (merge es fs)).Nodup := by
  induction fs generalizing es with
  | nil => exact h
  | cons f fs ih => exact ih (nodup_keys_insert h f)

/-- Whatever is inserted one after the other, each key is there once. -/
theorem nodup_keys_ofList (fs : List ε) : (keys (ofList fs)).Nodup := by
  have h : (keys ([] : List ε)).Nodup := List.nodup_nil
  exact nodup_keys_merge h fs

/-! ## The entry of a key after an insertion -/

theorem find?_replace_self {k : κ} {e : ε} (he : HasKey.key? e = some k) (es : List ε) :
    find? k (replace k e es) = some e := by
  have hk : hasKey k e = true := by simp [hasKey, he]
  induction es with
  | nil => simp [replace, find?, hk]
  | cons x xs ih =>
    by_cases hx : hasKey k x = true
    · simp [replace, hx, find?, hk]
    · simpa [replace, hx, find?] using ih

theorem find?_replace_of_ne {j k : κ} {e : ε} (he : HasKey.key? e = some k) (hjk : j ≠ k)
    (es : List ε) : find? j (replace k e es) = find? j es := by
  have hje : hasKey j e = false := by simp [hasKey, he, hjk.symm]
  induction es with
  | nil => simp [replace, find?, hje]
  | cons x xs ih =>
    by_cases hx : hasKey k x = true
    · have hxk : HasKey.key? x = some k := by simpa [hasKey] using hx
      have hjx : hasKey j x = false := by simp [hasKey, hxk, hjk.symm]
      simp [replace, hx, find?, hje, hjx]
    · by_cases hj : hasKey j x = true
      · simp [replace, hx, find?, hj]
      · simpa [replace, hx, find?, hj] using ih

@[simp] theorem merge_nil (es : List ε) : merge es [] = es := rfl

@[simp] theorem merge_cons (es : List ε) (f : ε) (fs : List ε) :
    merge es (f :: fs) = merge (insert es f) fs := rfl

end Entries

end SqlStatement
