import SqlStatement.Params.Basic
import SqlStatement.Proofs.Entries

/-!
# Parameters after binding and merging

* `get?_merge` : of two bindings of one key the merged one prevails;
* `entries_set` : a new key goes to the end.
-/

namespace SqlStatement.Params

theorem keys_eq (ps : Params) : ps.keys = Entries.keys ps.entries := by
  unfold keys Entries.keys
  rw [← List.filterMap_eq_map]
  rfl

theorem contains_iff {ps : Params} {key : ParamKey} : ps.contains key = true ↔ key ∈ ps.keys := by
  rw [keys_eq]
  exact Entries.contains_iff_mem_keys

theorem get?_eq_none_iff {ps : Params} {key : ParamKey} : ps.get? key = none ↔ key ∉ ps.keys := by
  unfold get?
  rw [Option.map_eq_none_iff, Entries.find?_eq_none_iff, keys_eq]

theorem mem_keys_of_get? {ps : Params} {key : ParamKey} {b : Binding}
    (h : ps.get? key = some b) : key ∈ ps.keys := by
  by_contra hk
  rw [get?_eq_none_iff.2 hk] at h
  cases h

theorem get?_of_mem_keys {ps : Params} {key : ParamKey} (h : key ∈ ps.keys) :
    ∃ b, ps.get? key = some b := by
  rw [← Option.ne_none_iff_exists']
  exact fun hn => get?_eq_none_iff.1 hn h

theorem mem_entries_iff {ps : Params} {key : ParamKey} {b : Binding} :
    (key, b) ∈ ps.entries ↔ ps.get? key = some b := by
  unfold get?
  constructor
  · intro h
    rw [Entries.find?_of_mem ps.nodup h rfl]
    rfl
  · intro h
    obtain ⟨⟨j, b'⟩, he, rfl⟩ := Option.map_eq_some_iff.1 h
    obtain ⟨hm, hj⟩ := Entries.mem_of_find? he
    cases hj
    exact hm

/-! ## Merging -/

/-- The merged parameters prevail. -/
theorem get?_merge (ps qs : Params) (key : ParamKey) :
    (ps.merge qs).get? key = (qs.get? key).or (ps.get? key) := by
  unfold get? merge
  rw [Entries.find?_merge qs.nodup]
  cases Entries.find? key qs.entries with
  | none => rfl
  | some e => rfl

theorem mem_keys_merge {ps qs : Params} {key : ParamKey} :
    key ∈ (ps.merge qs).keys ↔ key ∈ ps.keys ∨ key ∈ qs.keys := by
  rw [keys_eq, keys_eq, keys_eq]
  exact Entries.mem_keys_merge

theorem entries_subset_merge (ps qs : Params) : qs.entries ⊆ (ps.merge qs).entries := by
  rintro ⟨key, b⟩ h
  rw [mem_entries_iff] at h ⊢
  rw [get?_merge, h, Option.some_or]

theorem merge_eq_self {ps qs : Params} (h : qs.entries ⊆ ps.entries) : ps.merge qs = ps := by
  apply Params.ext
  refine Entries.merge_eq_self fun e he => ⟨e.1, ?_⟩
  exact Entries.find?_of_mem ps.nodup (h he) rfl

/-! ## Setting a value -/

/-- A new key goes to the end. -/
theorem entries_set {ps : Params} {key : ParamKey} (h : key ∉ ps.keys) (v : Value) :
    (ps.set key v).entries = ps.entries ++ [(key, .value v)] := by
  show Entries.insert ps.entries (key, Binding.value v) = _
  refine Entries.insert_eq_append fun k hk => ?_
  cases hk
  rw [← keys_eq]
  exact h

end SqlStatement.Params
