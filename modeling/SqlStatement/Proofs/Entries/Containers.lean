import SqlStatement.Builder.Values
import SqlStatement.Condition.Basic
import SqlStatement.Params.Basic
import SqlStatement.Proofs.Entries.FirstPlaces

/-!
# Containers of entries

Parameters, the terms of a condition and the values to write are three containers of one kind, and
insertions and mergings have one law in all of them.

* `Construction` : insertions and mergings in any order, and the entries inserted by them;
* `Container.Keeps` : the container keeps its entries in a list as `Entries` does;
* `Container.mergeLaw_all` : the three containers.
-/

namespace SqlStatement

namespace Entries

variable {ε κ : Type} [DecidableEq κ] [HasKey ε κ] {es fs : List ε}

/-! ## Merging lists of entries -/

theorem find?_reverse (h : (keys es).Nodup) (k : κ) : find? k es.reverse = find? k es := by
  rw [← find?_ofList, ofList_of_nodup h]

theorem latest_of_key {e : ε} {k : κ} (he : HasKey.key? e = some k) (es : List ε) :
    latest es e = (find? k es.reverse).getD e := by
  have hsame : sameKey e = hasKey k := by
    funext f
    rw [Bool.eq_iff_iff, sameKey_iff, hasKey_iff, he]
    simp
  unfold latest find?
  rw [hsame]

theorem latest_ofList (fs : List ε) (e : ε) : latest (ofList fs) e = latest fs e := by
  obtain he | ⟨k, he⟩ := Option.eq_none_or_eq_some (HasKey.key? e)
  · rw [latest_of_isNew (isNew_of_keyless he _), latest_of_isNew (isNew_of_keyless he _)]
  · rw [latest_of_key he, latest_of_key he, find?_reverse (nodup_keys_ofList fs), find?_ofList]

theorem isNew_latest (es fs : List ε) (e : ε) : isNew es (latest fs e) = isNew es e := by
  unfold isNew
  rw [key?_latest]

/-- Inserting entries that have been inserted into an empty list is inserting them at once. -/
theorem merge_ofList (h : (keys es).Nodup) (fs : List ε) : merge es (ofList fs) = merge es fs := by
  have hlatest : latest (ofList fs) = latest fs := funext (latest_ofList fs)
  have hnew : isNew es ∘ latest fs = isNew es := funext (isNew_latest es fs)
  rw [merge_eq_of_nodup h (nodup_keys_ofList fs), merge_eq h, hlatest, ofList_eq, List.map_append,
    List.filter_map, hnew]

theorem merge_assoc (hes : (keys es).Nodup) (hfs : (keys fs).Nodup) (gs : List ε) :
    merge (merge es fs) gs = merge es (merge fs gs) := by
  rw [merge_eq_ofList hfs, merge_ofList hes, merge_append]

/-- Entries inserted once more take their own places, those without a key go to the end. -/
theorem merge_self (h : (keys es).Nodup) : merge es es = es ++ es.filter keyless := by
  have hnew : ∀ e ∈ es, isNew es e = keyless e := by
    intro e he
    unfold isNew keyless
    cases hk : HasKey.key? e with
    | none => rfl
    | some k =>
      have hmem : k ∈ keys es := mem_keys.2 ⟨e, he, hk⟩
      simp [hmem]
  rw [merge_eq_of_nodup h h, List.map_congr_left fun e he => latest_of_mem h he, List.map_id',
    List.filter_congr hnew]

theorem keys_ofList (fs : List ε) : keys (ofList fs) = (keys fs).eraseDups :=
  (keys_merge [] fs).trans (foldl_addKey_nil _)

end Entries

/-! ## Containers -/

variable {σ ε κ : Type}

/-- The operations of a container of entries. -/
structure Container (σ ε : Type) where
  /-- the entries, in order -/
  entries : σ → List ε
  empty : σ
  insert : σ → ε → σ
  merge : σ → σ → σ

/-- How a container comes about: from the empty one by insertions, and by merging with containers
that have come about in the same way. -/
inductive Construction (ε : Type) where
  | empty
  | insert (c : Construction ε) (e : ε)
  | merge (c d : Construction ε)

/-- The entries that are inserted in all, in order. -/
def Construction.inserted : Construction ε → List ε
  | empty => []
  | insert c e => c.inserted ++ [e]
  | merge c d => c.inserted ++ d.inserted

namespace Container

variable (k : Container σ ε)

def made : Construction ε → σ
  | .empty => k.empty
  | .insert c e => k.insert (made c) e
  | .merge c d => k.merge (made c) (made d)

section Law

variable [DecidableEq κ] [HasKey ε κ]

/-- The container is its list of entries, and its operations are those on the list. -/
structure Keeps : Prop where
  ext : ∀ a b, k.entries a = k.entries b → a = b
  nodup : ∀ a, (Entries.keys (k.entries a)).Nodup
  entries_empty : k.entries k.empty = []
  entries_insert : ∀ a e, k.entries (k.insert a e) = Entries.insert (k.entries a) e
  entries_merge : ∀ a b, k.entries (k.merge a b) = Entries.merge (k.entries a) (k.entries b)

/-- What insertions and mergings come to. -/
structure MergeLaw : Prop where
  /-- each key is there once -/
  nodup_keys : ∀ c, (Entries.keys (k.entries (k.made c))).Nodup
  /-- the keys stand in the order of their first insertion -/
  keys_made : ∀ c, Entries.keys (k.entries (k.made c)) = (Entries.keys c.inserted).eraseDups
  /-- under each key stands the entry that was inserted last -/
  find?_made : ∀ c key,
    Entries.find? key (k.entries (k.made c)) = Entries.find? key c.inserted.reverse
  /-- entries without a key are all there, as often as they were inserted and in order -/
  keyless_made : ∀ c,
    (k.entries (k.made c)).filter Entries.keyless = c.inserted.filter Entries.keyless
  /-- among all entries each key has its first place, with its last entry -/
  entries_made : ∀ c,
    k.entries (k.made c) = (Entries.firsts c.inserted).map (Entries.latest c.inserted)
  merge_assoc : ∀ a b c, k.merge (k.merge a b) c = k.merge a (k.merge b c)
  empty_merge : ∀ a, k.merge k.empty a = a
  merge_empty : ∀ a, k.merge a k.empty = a
  /-- a container without entries that have no key is not changed by itself -/
  merge_self : ∀ a, (∀ e ∈ k.entries a, Entries.keyless e = false) → k.merge a a = a

namespace Keeps

variable {k}

theorem entries_made (h : k.Keeps) (c : Construction ε) :
    k.entries (k.made c) = Entries.ofList c.inserted := by
  induction c with
  | empty => exact h.entries_empty
  | insert c e ih =>
    show k.entries (k.insert (k.made c) e) = Entries.ofList (c.inserted ++ [e])
    rw [h.entries_insert, ih, Entries.ofList_snoc]
  | merge c d ihc ihd =>
    show k.entries (k.merge (k.made c) (k.made d)) = Entries.ofList (c.inserted ++ d.inserted)
    rw [h.entries_merge, ihc, ihd, Entries.merge_ofList (Entries.nodup_keys_ofList _)]
    exact (Entries.merge_append [] c.inserted d.inserted).symm

theorem mergeLaw (h : k.Keeps) : k.MergeLaw where
  nodup_keys c := by
    rw [h.entries_made]
    exact Entries.nodup_keys_ofList _
  keys_made c := by rw [h.entries_made, Entries.keys_ofList]
  find?_made c key := by rw [h.entries_made, Entries.find?_ofList]
  keyless_made c := by rw [h.entries_made, Entries.filter_keyless_ofList]
  entries_made c := by rw [h.entries_made, Entries.ofList_eq]
  merge_assoc a b c := by
    apply h.ext
    simp only [h.entries_merge]
    exact Entries.merge_assoc (h.nodup a) (h.nodup b) _
  empty_merge a := by
    apply h.ext
    rw [h.entries_merge, h.entries_empty]
    exact Entries.ofList_of_nodup (h.nodup a)
  merge_empty a := by
    apply h.ext
    rw [h.entries_merge, h.entries_empty, Entries.merge_nil]
  merge_self a ha := by
    apply h.ext
    have hnone : (k.entries a).filter Entries.keyless = [] :=
      List.filter_eq_nil_iff.2 fun e he => Bool.eq_false_iff.1 (ha e he)
    rw [h.entries_merge, Entries.merge_self (h.nodup a), hnone, List.append_nil]

end Keeps

end Law

/-! ## The three containers -/

def params : Container Params (ParamKey × Binding) :=
  ⟨Params.entries, {}, fun ps e => ps.bind e.1 e.2, Params.merge⟩

def conditions : Container Conditions Term :=
  ⟨Conditions.terms, {}, Conditions.push, Conditions.merge⟩

def values : Container Values Assignment := ⟨Values.entries, {}, Values.push, Values.merge⟩

theorem keeps_params : params.Keeps :=
  ⟨fun _ _ => Params.ext, Params.nodup, rfl, fun _ _ => rfl, fun _ _ => rfl⟩

theorem keeps_conditions : conditions.Keeps :=
  ⟨fun _ _ => Conditions.ext, Conditions.nodup, rfl, fun _ _ => rfl, fun _ _ => rfl⟩

theorem keeps_values : values.Keeps :=
  ⟨fun _ _ => Values.ext, Values.nodup, rfl, fun _ _ => rfl, fun _ _ => rfl⟩

/-- Parameters, the terms of conditions and values to write obey one law: whatever is inserted and
merged, each key is there once, at the place of its first insertion and with its last entry, and
entries without a key are all there in order. So merging is associative, the empty container counts
for nothing, and a container merged with itself stays as it is if all its entries have keys. -/
theorem mergeLaw_all : params.MergeLaw ∧ conditions.MergeLaw ∧ values.MergeLaw :=
  ⟨keeps_params.mergeLaw, keeps_conditions.mergeLaw, keeps_values.mergeLaw⟩

/-- A column keeps its place and takes the later value, an expression comes a second time. -/
example :
    (values.merge (.ofList [.column "a" (.int 1), .expr (.text "n = n + 1")])
      (.ofList [.column "b" (.int 2), .expr (.text "n = n + 1"), .column "a" (.int 3)])).entries =
      [.column "a" (.int 3), .expr (.text "n = n + 1"), .column "b" (.int 2),
        .expr (.text "n = n + 1")] := by
  decide

end Container

end SqlStatement
