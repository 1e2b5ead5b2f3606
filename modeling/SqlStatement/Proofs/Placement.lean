import Mathlib.Data.List.Forall2
import SqlStatement.Proofs.Params
import SqlStatement.Proofs.Text
import SqlStatement.Template

/-!
# Fresh placeholders

The search for a placeholder skips the names that are bound. It tries one name more than there are
bindings, and names of different numbers are different, so it ends at a name that is not bound.

* `next_le_free`, `taken_of_lt_free`, `generated_free_notMem` : the number found is the first from
  the counter on whose name is not bound;
* `entries_place` : placing a value adds one binding at the end and changes no other.
-/

namespace SqlStatement.Placement

/-- The key of the generated placeholder with the given number. -/
def generated (n : Nat) : ParamKey := .named (placeholder n)

theorem placeholder_injective {m n : Nat} (h : placeholder m = placeholder n) : m = n := by
  unfold placeholder at h
  exact Text.toString_injective ((String.append_right_inj _).1 h)

theorem generated_injective {m n : Nat} (h : generated m = generated n) : m = n :=
  placeholder_injective (ParamKey.named.inj h)

/-! ## The search -/

theorem le_firstFree (ps : Params) (tries n : Nat) : n ≤ firstFree ps tries n := by
  induction tries generalizing n with
  | zero => exact Nat.le_refl n
  | succ tries ih =>
    unfold firstFree
    split
    next => exact Nat.le_of_succ_le (ih (n + 1))
    next => exact Nat.le_refl n

theorem taken_of_lt_firstFree {ps : Params} {tries n m : Nat} (hn : n ≤ m)
    (hm : m < firstFree ps tries n) : generated m ∈ ps.keys := by
  induction tries generalizing n with
  | zero => exact absurd hm (Nat.not_lt_of_le hn)
  | succ tries ih =>
    unfold firstFree at hm
    split at hm
    next hc =>
      obtain rfl | hlt := Nat.eq_or_lt_of_le hn
      · exact Params.contains_iff.1 hc
      · exact ih hlt hm
    next => exact absurd hm (Nat.not_lt_of_le hn)

/-- The search stops at a name that is not bound or when its tries are used up. -/
theorem firstFree_notMem_or (ps : Params) (tries n : Nat) :
    generated (firstFree ps tries n) ∉ ps.keys ∨ firstFree ps tries n = n + tries := by
  induction tries generalizing n with
  | zero => exact Or.inr rfl
  | succ tries ih =>
    unfold firstFree
    split
    next =>
      obtain h | h := ih (n + 1)
      · exact Or.inl h
      · exact Or.inr (by omega)
    next hc => exact Or.inl fun h => hc (Params.contains_iff.2 h)

theorem next_le_free (p : Placement) : p.next ≤ p.free :=
  le_firstFree p.params p.params.size p.next

theorem taken_of_lt_free {p : Placement} {m : Nat} (hn : p.next ≤ m) (hm : m < p.free) :
    generated m ∈ p.params.keys :=
  taken_of_lt_firstFree hn hm

/-- The name found is not bound: as many names as there are bindings may have been passed, and one
more cannot be bound. -/
theorem generated_free_notMem (p : Placement) : generated p.free ∉ p.params.keys := by
  obtain h | h := firstFree_notMem_or p.params p.params.size p.next
  · exact h
  intro hfree
  have hall : (List.range' p.next (p.params.size + 1)).map generated ⊆ p.params.keys := by
    intro key hkey
    obtain ⟨m, hm, rfl⟩ := List.mem_map.1 hkey
    rw [List.mem_range'_1] at hm
    have hle : m ≤ p.free := by
      unfold free
      omega
    obtain rfl | hlt := Nat.eq_or_lt_of_le hle
    · exact hfree
    · exact taken_of_lt_free hm.1 hlt
  have hnodup : ((List.range' p.next (p.params.size + 1)).map generated).Nodup := by
    refine List.Pairwise.map generated ?_ (List.nodup_range' 1)
    intro a b hab heq
    exact hab (generated_injective heq)
  have hlen := List.Nodup.length_le_of_subset hnodup hall
  have hsize : p.params.keys.length = p.params.size := List.length_map _
  rw [List.length_map, List.length_range', hsize] at hlen
  omega

/-! ## Placing a value -/

theorem place_next (p : Placement) (v : Value) : (p.place v).2.next = p.free + 1 := rfl

theorem entries_place (p : Placement) (v : Value) :
    (p.place v).2.params.entries = p.params.entries ++ [(generated p.free, .value v)] :=
  Params.entries_set (generated_free_notMem p) v

theorem keys_place (p : Placement) (v : Value) :
    (p.place v).2.params.keys = p.params.keys ++ [generated p.free] := by
  unfold Params.keys
  rw [entries_place, List.map_append]
  rfl

end SqlStatement.Placement
