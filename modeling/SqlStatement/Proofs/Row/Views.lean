import Mathlib.Data.String.Basic
import SqlStatement.Proofs.Row.FetchMap

/-!
# The views of a row

A row is read by column, turned into an object, or cut down to some of its columns. Reading searches
the columns from the end, the object is written from the front and overwrites, and a row of chosen
columns is searched anew. All three mean the last of several columns with one name.

* `lastIndex?_eq_some_iff` : the last place of a name;
* `Row.views_agree` : what the three have in common.
-/

namespace SqlStatement

/-! ## The last place of a name -/

section LastPlace

variable {name : String} {ns : List String} {i : Nat}

theorem getElem?_of_lastIndex? (h : lastIndex? name ns = some i) : ns[i]? = some name := by
  induction ns generalizing i with
  | nil => cases h
  | cons n ns ih =>
    unfold lastIndex? at h
    cases hlast : lastIndex? name ns with
    | some j =>
      rw [hlast] at h
      cases h
      exact ih hlast
    | none =>
      rw [hlast] at h
      dsimp only at h
      split_ifs at h with hn
      cases h
      rw [hn]
      rfl

theorem lastIndex?_ne_none (h : name ∈ ns) : lastIndex? name ns ≠ none := by
  induction ns with
  | nil => cases h
  | cons n ns ih =>
    unfold lastIndex?
    cases hlast : lastIndex? name ns with
    | some j => simp
    | none =>
      obtain rfl | hmem := List.mem_cons.1 h
      · simp
      · exact absurd hlast (ih hmem)

/-- No later place has the name. -/
theorem le_of_lastIndex? (h : lastIndex? name ns = some i) {j : Nat} (hj : ns[j]? = some name) :
    j ≤ i := by
  induction ns generalizing i j with
  | nil => cases h
  | cons n ns ih =>
    unfold lastIndex? at h
    cases j with
    | zero => exact Nat.zero_le i
    | succ j =>
      rw [List.getElem?_cons_succ] at hj
      cases hlast : lastIndex? name ns with
      | none => exact absurd hlast (lastIndex?_ne_none (List.mem_of_getElem? hj))
      | some k =>
        rw [hlast] at h
        cases h
        exact Nat.succ_le_succ (ih hlast hj)

theorem lastIndex?_eq_some_iff :
    lastIndex? name ns = some i ↔ ns[i]? = some name ∧ ∀ j, i < j → ns[j]? ≠ some name := by
  constructor
  · intro h
    exact ⟨getElem?_of_lastIndex? h, fun j hij hj => Nat.not_le_of_lt hij (le_of_lastIndex? h hj)⟩
  · rintro ⟨hi, hlast⟩
    obtain ⟨k, hk⟩ := Option.ne_none_iff_exists'.1 (lastIndex?_ne_none (List.mem_of_getElem? hi))
    have hle := le_of_lastIndex? hk hi
    obtain rfl | hlt := Nat.eq_or_lt_of_le hle
    · exact hk
    · exact absurd (getElem?_of_lastIndex? hk) (hlast k hlt)

end LastPlace

/-! ## Members of an object -/

namespace Json

variable {name : String} {value : Json} {ms : List (String × Json)}

theorem member?_setMember_of_ne {k : String} (hk : k ≠ name) (value : Json)
    (ms : List (String × Json)) : member? k (setMember name value ms) = member? k ms := by
  have hne : (k == name) = false := beq_false_of_ne hk
  unfold member?
  induction ms with
  | nil => rw [setMember, List.lookup_cons, hne]
  | cons m ms ih =>
    obtain ⟨n, v⟩ := m
    unfold setMember
    split_ifs with hn hlt
    · subst hn
      rw [List.lookup_cons, List.lookup_cons, hne]
    · rw [List.lookup_cons, hne]
    · rw [List.lookup_cons, List.lookup_cons, ih]

theorem eq_or_mem_of_mem_setMember {m : String × Json} (hm : m ∈ setMember name value ms) :
    m.1 = name ∨ m ∈ ms := by
  induction ms with
  | nil =>
    rw [setMember, List.mem_singleton] at hm
    exact Or.inl (congrArg Prod.fst hm)
  | cons first ms ih =>
    obtain ⟨n, v⟩ := first
    unfold setMember at hm
    split_ifs at hm with hn hlt
    · obtain rfl | hm := List.mem_cons.1 hm
      · exact Or.inl rfl
      · exact Or.inr (List.mem_cons_of_mem _ hm)
    · obtain rfl | hm := List.mem_cons.1 hm
      · exact Or.inl rfl
      · exact Or.inr hm
    · obtain rfl | hm := List.mem_cons.1 hm
      · exact Or.inr List.mem_cons_self
      · exact (ih hm).imp_right (List.mem_cons_of_mem _)

/-- The names of the members ascend, so each is there once. -/
def Sorted (ms : List (String × Json)) : Prop := ms.Pairwise fun m n => m.1 < n.1

theorem sorted_setMember (h : Sorted ms) (name : String) (value : Json) :
    Sorted (setMember name value ms) := by
  induction ms with
  | nil => exact List.pairwise_singleton _ _
  | cons m ms ih =>
    obtain ⟨n, v⟩ := m
    obtain ⟨hfirst, hrest⟩ := List.pairwise_cons.1 h
    unfold setMember
    split_ifs with hn hlt
    · subst hn
      exact List.pairwise_cons.2 ⟨hfirst, hrest⟩
    · refine List.pairwise_cons.2 ⟨fun m hm => ?_, h⟩
      obtain rfl | hm := List.mem_cons.1 hm
      · exact hlt
      · exact String.lt_trans hlt (hfirst m hm)
    · refine List.pairwise_cons.2 ⟨fun m hm => ?_, ih hrest⟩
      obtain hname | hm := eq_or_mem_of_mem_setMember hm
      · rw [hname]
        exact lt_of_le_of_ne (not_lt.1 hlt) hn
      · exact hfirst m hm

theorem mem_names_iff {k : String} : k ∈ ms.map (·.1) ↔ member? k ms ≠ none := by
  unfold member?
  rw [ne_eq, List.lookup_eq_none_iff, List.mem_map]
  simp only [bne_iff_ne, not_forall, not_not, exists_prop, @eq_comm _ k]

end Json

namespace Row

variable {r s : Row} {c : String} {cs : List String} {v : Value}

/-! ## Cells -/

/-- The cell of a column is the one at the last place of its name. -/
theorem get?_eq_some_iff : r.get? c = some v ↔
    ∃ i : Nat, r.columns[i]? = some c ∧ (∀ j, i < j → r.columns[j]? ≠ some c) ∧ r.values[i]? = some v := by
  unfold get?
  simp only [Option.bind_eq_some_iff, lastIndex?_eq_some_iff, and_assoc]

theorem mem_columns_of_get? (h : r.get? c = some v) : c ∈ r.columns := by
  obtain ⟨i, hi, -⟩ := get?_eq_some_iff.1 h
  exact List.mem_of_getElem? hi

/-- A row with a cell for each column has one for every name among its columns. -/
theorem get?_ne_none_iff (hr : r.values.length = r.columns.length) :
    r.get? c ≠ none ↔ c ∈ r.columns := by
  constructor
  · intro h
    obtain ⟨v, hv⟩ := Option.ne_none_iff_exists'.1 h
    exact mem_columns_of_get? hv
  · intro h
    obtain ⟨i, hi⟩ := Option.ne_none_iff_exists'.1 (lastIndex?_ne_none h)
    have hlength : i < r.values.length := by
      rw [hr]
      exact (List.getElem?_eq_some_iff.1 (getElem?_of_lastIndex? hi)).1
    unfold get?
    rw [hi, Option.bind_some, List.getElem?_eq_getElem hlength]
    exact Option.some_ne_none _

/-- The cell of a column is the last that stands with its name. -/
theorem lookup_reverse_zip {ns : List String} {vs : List Value} (h : vs.length = ns.length) :
    (ns.zip vs).reverse.lookup c = Row.get? ⟨ns, vs⟩ c := by
  induction ns generalizing vs with
  | nil => rfl
  | cons n ns ih =>
    rcases vs with _ | ⟨v, vs⟩
    · cases h
    have hlength : vs.length = ns.length := Nat.succ.inj h
    rw [List.zip_cons_cons, List.reverse_cons, List.lookup_append, ih hlength]
    unfold get?
    dsimp only
    rw [lastIndex?]
    cases hlast : lastIndex? c ns with
    | some i =>
      have hi : i < vs.length := by
        rw [hlength]
        exact (List.getElem?_eq_some_iff.1 (getElem?_of_lastIndex? hlast)).1
      rw [Option.bind_some, Option.bind_some, List.getElem?_cons_succ, List.getElem?_eq_getElem hi,
        Option.some_or]
    | none =>
      by_cases hn : n = c
      · subst hn
        simp
      · simp [hn, Ne.symm hn]

theorem lookup_reverse_pairs (hr : r.values.length = r.columns.length) (c : String) :
    r.pairs.reverse.lookup c = r.get? c :=
  lookup_reverse_zip hr

/-! ## The object -/

theorem member?_foldl (ps : List (String × Value)) (c : String) :
    Json.member? c (ps.foldl (fun ms (c, v) => Json.setMember c v.toJson ms) []) =
      (ps.reverse.lookup c).map Value.toJson := by
  induction ps using List.reverseRecOn with
  | nil => rfl
  | append_singleton ps p ih =>
    rw [List.foldl_append, List.foldl_cons, List.foldl_nil, List.reverse_concat, List.lookup_cons]
    by_cases hc : c = p.1
    · rw [hc, Json.member?_setMember_self, beq_self_eq_true]
      rfl
    · rw [Json.member?_setMember_of_ne hc, ih, beq_false_of_ne hc]

theorem sorted_foldl (ps : List (String × Value)) :
    Json.Sorted (ps.foldl (fun ms (c, v) => Json.setMember c v.toJson ms) []) := by
  induction ps using List.reverseRecOn with
  | nil => exact List.Pairwise.nil
  | append_singleton ps p ih =>
    rw [List.foldl_append]
    exact Json.sorted_setMember ih p.1 p.2.toJson

theorem member?_members (hr : r.values.length = r.columns.length) (c : String) :
    Json.member? c r.members = (r.get? c).map Value.toJson := by
  rw [← lookup_reverse_pairs hr]
  exact member?_foldl r.pairs c

/-! ## Chosen columns -/

/-- The second row has the chosen columns, with the cells of the first. -/
structure Selects (r : Row) (cs : List String) (s : Row) : Prop where
  columns : s.columns = cs
  values : s.values.map some = cs.map r.get?

/-- However often a column was chosen, its cell is that of the first row. -/
theorem Selects.get? (h : r.Selects cs s) (hc : c ∈ cs) : s.get? c = r.get? c := by
  obtain ⟨i, hi⟩ := Option.ne_none_iff_exists'.1 (lastIndex?_ne_none hc)
  have hplace : cs[i]? = some c := getElem?_of_lastIndex? hi
  have hcell : s.values[i]?.map some = some (r.get? c) := by
    rw [← List.getElem?_map, h.values, List.getElem?_map, hplace]
    rfl
  obtain ⟨v, hv, hvc⟩ := Option.map_eq_some_iff.1 hcell
  unfold Row.get? at hvc ⊢
  rw [h.columns, hi, Option.bind_some, hv, hvc]

theorem project_eq_ok_iff (hr : r.values.length = r.columns.length) (cs : List String) :
    (∃ s, r.project cs = .ok s) ↔ ∀ c ∈ cs, c ∈ r.columns := by
  have hmissing : r.missing? cs = none ↔ ∀ c ∈ cs, c ∈ r.columns := by
    rw [missing?_eq_none_iff]
    exact forall₂_congr fun c _ => get?_ne_none_iff hr
  rw [← hmissing]
  obtain ⟨hnone, s, hs, -⟩ | ⟨c, hc, herror⟩ := r.project_cases cs
  · exact iff_of_true ⟨s, hs⟩ hnone
  · rw [herror, hc]
    simp

theorem selects_of_project (h : r.project cs = .ok s) : r.Selects cs s := by
  obtain ⟨-, s', hs, hcolumns, hvalues⟩ | ⟨c, -, herror⟩ := r.project_cases cs
  · rw [hs] at h
    cases h
    exact ⟨hcolumns, hvalues.symm⟩
  · rw [herror] at h
    cases h

/-! ## Agreement -/

/-- For a row with a cell for each column: its object has the names of the columns as its members'
names, each once, and under each what the row gives for it, which is the cell at the last place of
the name. Columns can be chosen exactly if the row has them all; the row of chosen columns has their
cells in the order asked for, and gives for each of them what the first row gives. -/
theorem views_agree (r : Row) (hr : r.values.length = r.columns.length) :
    (∃ ms, r.toJson = .object ms ∧ Json.Sorted ms ∧ ∀ c, (c ∈ ms.map (·.1) ↔ c ∈ r.columns) ∧
        Json.member? c ms = (r.get? c).map Value.toJson) ∧
      (∀ c v, r.get? c = some v ↔ ∃ i : Nat, r.columns[i]? = some c ∧
        (∀ j, i < j → r.columns[j]? ≠ some c) ∧ r.values[i]? = some v) ∧
      ∀ cs, ((∃ s, r.project cs = .ok s) ↔ ∀ c ∈ cs, c ∈ r.columns) ∧
        ∀ s, r.project cs = .ok s → s.columns = cs ∧ s.values.map some = cs.map r.get? ∧
          ∀ c ∈ cs, s.get? c = r.get? c := by
  refine ⟨⟨r.members, rfl, sorted_foldl r.pairs, fun c => ⟨?_, member?_members hr c⟩⟩,
    fun c v => get?_eq_some_iff, fun cs => ⟨project_eq_ok_iff hr cs, fun s hs => ?_⟩⟩
  · rw [Json.mem_names_iff, member?_members hr, ne_eq, Option.map_eq_none_iff]
    exact get?_ne_none_iff hr
  · have hselects := selects_of_project hs
    exact ⟨hselects.columns, hselects.values, fun c hc => hselects.get? hc⟩

/-- A row with two columns of one name, of which the second is meant, chosen twice. -/
theorem views_agree_twice :
    let r : Row := ⟨["id", "name", "id"], [.int 1, .text "x", .int 2]⟩
    r.values.length = r.columns.length ∧ r.get? "id" = some (.int 2) ∧
      (∃ ms, r.toJson = .object ms ∧ Json.member? "id" ms = some (.int 2)) ∧
      ∃ s, r.project ["id", "name", "id"] = .ok s ∧ s.get? "id" = some (.int 2) := by
  intro r
  obtain ⟨⟨ms, hms, -, hmembers⟩, hcells, hproject⟩ := views_agree r rfl
  have hid : r.get? "id" = some (.int 2) := by decide
  obtain ⟨s, hs⟩ := (hproject ["id", "name", "id"]).1.2 (by decide)
  refine ⟨rfl, hid, ⟨ms, hms, ?_⟩, s, hs, ?_⟩
  · rw [(hmembers "id").2, hid]
    rfl
  · rw [((hproject _).2 s hs).2.2 "id" (by decide), hid]

end Row

end SqlStatement
