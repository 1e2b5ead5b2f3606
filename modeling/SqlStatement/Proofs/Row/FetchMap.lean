import Mathlib.Data.List.Induction
import SqlStatement.Proofs.Entries
import SqlStatement.Row.FetchMap

/-!
# The entries of a collected map

Collecting rows fails at the first row without a value for one of the columns that are asked for.
Otherwise each row contributes one part under its key, entries stand in the order of their first
row, a list entry holds the parts of all its rows in order, and an entry without lists the last of
these.

* `grouped`, `Latest` : lists by key, and their last members;
* `keyed_cases` : all rows contribute, or one is the first that does not;
* `FetchMap.build_collects` : what is collected, or which column is missing.
-/

namespace SqlStatement

/-! ## Lists by key -/

section Grouping

variable {α : Type}

/-- What stands under a key, in order. -/
def partsOf (k : MapKey) (ps : List (MapKey × α)) : List α := (ps.filter (·.1 = k)).map (·.2)

/-- The keys in the order of their first places, each with all that stands under it. -/
def grouped (ps : List (MapKey × α)) : List (MapKey × List α) :=
  (ps.map (·.1)).eraseDups.map fun k => (k, partsOf k ps)

/-- The entries have the keys of the lists, and under each the last member of its list. -/
def Latest (es : List (MapKey × List α)) (fs : List (MapKey × α)) : Prop :=
  List.Forall₂ (fun e f => f.1 = e.1 ∧ e.2.getLast? = some f.2) es fs

theorem partsOf_snoc (k : MapKey) (ps : List (MapKey × α)) (p : MapKey × α) :
    partsOf k (ps ++ [p]) = if p.1 = k then partsOf k ps ++ [p.2] else partsOf k ps := by
  unfold partsOf
  rw [List.filter_append, List.map_append]
  split_ifs with h <;> simp [h]

theorem partsOf_eq_nil {k : MapKey} {ps : List (MapKey × α)} (h : k ∉ ps.map (·.1)) :
    partsOf k ps = [] := by
  unfold partsOf
  rw [List.map_eq_nil_iff, List.filter_eq_nil_iff]
  intro p hp hk
  exact h (List.mem_map.2 ⟨p, hp, by simpa using hk⟩)

/-- Adding under a key changes the list of that key only, which is empty for a new key. -/
theorem addTo_map {k : MapKey} {ks : List MapKey} (hn : ks.Nodup) {f : MapKey → List α}
    (hf : k ∉ ks → f k = []) (x : α) :
    addTo k x (ks.map fun j => (j, f j)) =
      (Entries.addKey ks k).map fun j => (j, if k = j then f j ++ [x] else f j) := by
  induction ks with
  | nil => simp [addTo, Entries.addKey, hf]
  | cons j js ih =>
    obtain ⟨hj, hjs⟩ := List.nodup_cons.1 hn
    rw [List.map_cons, addTo]
    by_cases hjk : j = k
    · subst hjk
      have hrest : (js.map fun i => (i, f i)) =
          js.map fun i => (i, if j = i then f i ++ [x] else f i) := by
        refine List.map_congr_left fun i hi => ?_
        rw [if_neg (ne_of_mem_of_not_mem hi hj).symm]
      rw [if_pos rfl, hrest]
      simp [Entries.addKey]
    · have hnew : k ∉ js → f k = [] := fun hk => hf (by simp [hk, Ne.symm hjk])
      have hkeys : Entries.addKey (j :: js) k = j :: Entries.addKey js k := by
        unfold Entries.addKey
        by_cases hk : k ∈ js <;> simp [hk, Ne.symm hjk]
      rw [if_neg hjk, ih hjs hnew, hkeys, List.map_cons, if_neg (Ne.symm hjk)]

theorem collect_snoc (ps : List (MapKey × α)) (p : MapKey × α) :
    collect (ps ++ [p]) = addTo p.1 p.2 (collect ps) := by
  unfold collect
  rw [List.foldl_append]
  rfl

theorem collect_eq_grouped (ps : List (MapKey × α)) : collect ps = grouped ps := by
  induction ps using List.reverseRecOn with
  | nil => rfl
  | append_singleton ps p ih =>
    have hnew : p.1 ∉ (ps.map (·.1)).eraseDups → partsOf p.1 ps = [] := by
      rw [List.mem_eraseDups]
      exact partsOf_eq_nil
    rw [collect_snoc, ih]
    unfold grouped
    rw [addTo_map (Entries.nodup_eraseDups _) hnew, List.map_append, List.map_singleton,
      Entries.eraseDups_snoc]
    simp only [partsOf_snoc]

theorem perm_addTo (k : MapKey) (x : α) (es : List (MapKey × List α)) :
    ((addTo k x es).flatMap (·.2)).Perm (es.flatMap (·.2) ++ [x]) := by
  induction es with
  | nil => exact .refl _
  | cons e es ih =>
    rw [addTo]
    split_ifs with h
    · simp only [List.flatMap_cons, List.append_assoc]
      exact (List.perm_append_comm).append_left e.2
    · simp only [List.flatMap_cons, List.append_assoc]
      exact ih.append_left e.2

/-- Nothing is lost or doubled. -/
theorem perm_grouped (ps : List (MapKey × α)) :
    ((grouped ps).flatMap (·.2)).Perm (ps.map (·.2)) := by
  rw [← collect_eq_grouped]
  induction ps using List.reverseRecOn with
  | nil => exact .refl _
  | append_singleton ps p ih =>
    rw [collect_snoc, List.map_append]
    exact (perm_addTo p.1 p.2 (collect ps)).trans (ih.append_right [p.2])

theorem Latest.add {es : List (MapKey × List α)} {fs : List (MapKey × α)} (h : Latest es fs)
    (p : MapKey × α) : Latest (addTo p.1 p.2 es) (Entries.insert fs p) := by
  induction h with
  | nil => exact .cons ⟨rfl, rfl⟩ .nil
  | @cons e f es fs hef hs ih =>
    rw [addTo]
    split_ifs with hk
    · have hf : HasKey.key? f = some p.1 := congrArg some (hef.1.trans hk)
      rw [Entries.insert_cons_self hf rfl]
      exact .cons ⟨hk.symm, List.getLast?_concat⟩ hs
    · have hf : HasKey.key? f ≠ some p.1 := fun h => hk (hef.1.symm.trans (Option.some.inj h))
      rw [Entries.insert_cons_of_ne hf rfl]
      exact .cons hef ih

theorem latest_lastOfEach (ps : List (MapKey × α)) : Latest (grouped ps) (lastOfEach ps) := by
  rw [← collect_eq_grouped]
  induction ps using List.reverseRecOn with
  | nil => exact .nil
  | append_singleton ps p ih =>
    have hlast : lastOfEach (ps ++ [p]) = Entries.insert (lastOfEach ps) p := by
      unfold lastOfEach Entries.ofList Entries.merge
      rw [List.foldl_append]
      rfl
    rw [collect_snoc, hlast]
    exact ih.add p

end Grouping

/-! ## Rows -/

/-- The columns that the fields name. -/
def MapFields.columns : MapFields → List String
  | single column => [column]
  | many columns => columns
  | all => []

def MapOption.columns (option : MapOption) : List String := option.key :: option.fields.columns

namespace Row

/-- The first of the columns that has no value in the row. -/
def missing? (r : Row) (columns : List String) : Option String :=
  columns.find? fun c => (r.get? c).isNone

/-- The row gives the other for the fields: itself, or the named columns with their values. -/
def Gives (r : Row) : MapFields → Row → Prop
  | .all, s => s = r
  | .many columns, s => s.columns = columns ∧ columns.map r.get? = s.values.map some
  | .single column, s => s.columns = [column] ∧ [r.get? column] = s.values.map some

variable {r : Row} {c : String} {cs : List String}

theorem missing?_cons_of_none (h : r.get? c = none) : r.missing? (c :: cs) = some c := by
  simp [missing?, h]

theorem missing?_cons_of_some {v : Value} (h : r.get? c = some v) :
    r.missing? (c :: cs) = r.missing? cs := by
  simp [missing?, h]

theorem missing?_eq_none_iff : r.missing? cs = none ↔ ∀ c ∈ cs, r.get? c ≠ none := by
  simp [missing?, Option.ne_none_iff_isSome]

theorem require_of_some {v : Value} (h : r.get? c = some v) : r.require c = .ok v := by
  unfold require
  rw [h]

theorem require_of_none (h : r.get? c = none) : r.require c = .error (.columnNotFound c) := by
  unfold require
  rw [h]

theorem cells_cases (r : Row) (cs : List String) :
    (r.missing? cs = none ∧ ∃ vs, r.cells cs = .ok vs ∧ cs.map r.get? = vs.map some) ∨
      ∃ c, r.missing? cs = some c ∧ r.cells cs = .error (.columnNotFound c) := by
  induction cs with
  | nil => exact Or.inl ⟨rfl, [], rfl, rfl⟩
  | cons c cs ih =>
    unfold cells
    cases hc : r.get? c with
    | none =>
      rw [require_of_none hc]
      exact Or.inr ⟨c, missing?_cons_of_none hc, rfl⟩
    | some v =>
      rw [require_of_some hc, missing?_cons_of_some hc]
      obtain ⟨hnone, vs, hvs, hmap⟩ | ⟨d, hd, herror⟩ := ih
      · refine Or.inl ⟨hnone, v :: vs, ?_, ?_⟩
        · rw [hvs]
          rfl
        · rw [List.map_cons, hc, hmap, List.map_cons]
      · refine Or.inr ⟨d, hd, ?_⟩
        rw [herror]
        rfl

theorem project_cases (r : Row) (cs : List String) :
    (r.missing? cs = none ∧
        ∃ s, r.project cs = .ok s ∧ s.columns = cs ∧ cs.map r.get? = s.values.map some) ∨
      ∃ c, r.missing? cs = some c ∧ r.project cs = .error (.columnNotFound c) := by
  unfold project
  obtain ⟨hnone, vs, hvs, hmap⟩ | ⟨c, hc, herror⟩ := r.cells_cases cs
  · rw [hvs]
    exact Or.inl ⟨hnone, ⟨cs, vs⟩, rfl, rfl, hmap⟩
  · rw [herror]
    exact Or.inr ⟨c, hc, rfl⟩

end Row

/-- What a function makes of rows is a part that stands in a relation to the row, unless one of the
columns has no value; then the first of these is named. -/
def Parts {α : Type} (columns : List String) (part : Row → Except Error α) (R : Row → α → Prop) :
    Prop :=
  ∀ r : Row, (r.missing? columns = none ∧ ∃ x, part r = .ok x ∧ R r x) ∨
    ∃ c, r.missing? columns = some c ∧ part r = .error (.columnNotFound c)

theorem parts_require (column : String) :
    Parts [column] (·.require column) fun r v => r.get? column = some v := by
  intro r
  cases h : r.get? column with
  | none => exact Or.inr ⟨column, Row.missing?_cons_of_none h, Row.require_of_none h⟩
  | some v => exact Or.inl ⟨Row.missing?_cons_of_some h, v, Row.require_of_some h, h⟩

theorem parts_shape (fields : MapFields) :
    Parts fields.columns (·.shape fields) fun r s => r.Gives fields s := by
  intro r
  cases fields with
  | all => exact Or.inl ⟨rfl, r, rfl, rfl⟩
  | many columns => exact r.project_cases columns
  | single column => exact r.project_cases [column]

/-- The rows contribute the pairs: each row its key and its part. -/
def Contributes {α : Type} (column : String) (R : Row → α → Prop) (rows : List Row)
    (ps : List (MapKey × α)) : Prop :=
  List.Forall₂ (fun r p => (r.get? column).map MapKey.ofValue = some p.1 ∧ R r p.2) rows ps

/-- All rows contribute, or a first one has no value for one of the columns. -/
theorem keyed_cases {α : Type} {columns : List String} {part : Row → Except Error α}
    {R : Row → α → Prop} (hpart : Parts columns part R) (column : String) (rows : List Row) :
    (rows.findSome? (·.missing? (column :: columns)) = none ∧
        ∃ ps, keyed column part rows = .ok ps ∧ Contributes column R rows ps) ∨
      ∃ c, rows.findSome? (·.missing? (column :: columns)) = some c ∧
        keyed column part rows = .error (.columnNotFound c) := by
  induction rows with
  | nil => exact Or.inl ⟨rfl, [], rfl, .nil⟩
  | cons r rs ih =>
    unfold keyed Row.mapKey
    cases hkey : r.get? column with
    | none =>
      right
      rw [List.findSome?_cons, Row.missing?_cons_of_none hkey, Row.require_of_none hkey]
      exact ⟨column, rfl, rfl⟩
    | some v =>
      rw [List.findSome?_cons, Row.missing?_cons_of_some hkey, Row.require_of_some hkey]
      obtain ⟨hnone, x, hx, hR⟩ | ⟨c, hc, herror⟩ := hpart r
      · rw [hnone, hx]
        obtain ⟨hrows, ps, hps, hcontributes⟩ | ⟨c, hc, herror⟩ := ih
        · refine Or.inl ⟨hrows, (MapKey.ofValue v, x) :: ps, ?_, .cons ⟨?_, hR⟩ hcontributes⟩
          · rw [hps]
            rfl
          · rw [hkey]
            rfl
        · refine Or.inr ⟨c, hc, ?_⟩
          rw [herror]
          rfl
      · right
        rw [hc, herror]
        exact ⟨c, rfl, rfl⟩

theorem findSome?_missing?_eq_none_iff {columns : List String} {rows : List Row} :
    rows.findSome? (·.missing? columns) = none ↔ ¬∃ r ∈ rows, ∃ c ∈ columns, r.get? c = none := by
  rw [List.findSome?_eq_none_iff]
  simp only [Row.missing?_eq_none_iff, not_exists, not_and, ne_eq]

/-! ## Maps -/

namespace FetchMap

def ofCells (asList : Bool) (ps : List (MapKey × Value)) : FetchMap :=
  if asList then valueLists (grouped ps) else values (lastOfEach ps)

def ofRows (asList : Bool) (ps : List (MapKey × Row)) : FetchMap :=
  if asList then rowLists (grouped ps) else rows (lastOfEach ps)

theorem made_cases {α : Type} {columns : List String} {part : Row → Except Error α}
    {R : Row → α → Prop} (hpart : Parts columns part R) {key : String} {rs : List Row}
    {make : Bool → List (MapKey × α) → FetchMap} {f : Bool → Except Error FetchMap}
    (hf : ∀ asList, f asList = (keyed key part rs).map (make asList)) :
    (rs.findSome? (·.missing? (key :: columns)) = none ∧
        ∃ ps, Contributes key R rs ps ∧ ∀ asList, f asList = .ok (make asList ps)) ∨
      ∃ c, rs.findSome? (·.missing? (key :: columns)) = some c ∧
        ∀ asList, f asList = .error (.columnNotFound c) := by
  obtain ⟨hnone, ps, hps, hcontributes⟩ | ⟨c, hc, herror⟩ := keyed_cases hpart key rs
  · refine Or.inl ⟨hnone, ps, hcontributes, fun asList => ?_⟩
    rw [hf, hps]
    rfl
  · refine Or.inr ⟨c, hc, fun asList => ?_⟩
    rw [hf, herror]
    rfl

theorem build_single (key field : String) (rs : List Row) :
    (rs.findSome? (·.missing? [key, field]) = none ∧
        ∃ ps, Contributes key (fun r v => r.get? field = some v) rs ps ∧
          ∀ asList, build ⟨key, asList, .single field⟩ rs = .ok (ofCells asList ps)) ∨
      ∃ c, rs.findSome? (·.missing? [key, field]) = some c ∧
        ∀ asList, build ⟨key, asList, .single field⟩ rs = .error (.columnNotFound c) := by
  have hbuild : ∀ asList, build ⟨key, asList, .single field⟩ rs =
      (keyed key (·.require field) rs).map (ofCells asList) := by
    unfold ofCells
    simp only [← collect_eq_grouped]
    rintro (_ | _) <;> rfl
  exact made_cases (parts_require field) hbuild

theorem build_rows (fields : MapFields) (h : ∀ field, fields ≠ .single field) (key : String)
    (rs : List Row) :
    (rs.findSome? (·.missing? (key :: fields.columns)) = none ∧
        ∃ ps, Contributes key (fun r s => r.Gives fields s) rs ps ∧
          ∀ asList, build ⟨key, asList, fields⟩ rs = .ok (ofRows asList ps)) ∨
      ∃ c, rs.findSome? (·.missing? (key :: fields.columns)) = some c ∧
        ∀ asList, build ⟨key, asList, fields⟩ rs = .error (.columnNotFound c) := by
  have hbuild : ∀ asList, build ⟨key, asList, fields⟩ rs =
      (keyed key (·.shape fields) rs).map (ofRows asList) := by
    unfold ofRows
    simp only [← collect_eq_grouped]
    cases fields with
    | single field => exact absurd rfl (h field)
    | many columns => rintro (_ | _) <;> rfl
    | all => rintro (_ | _) <;> rfl
  exact made_cases (parts_shape fields) hbuild

theorem build_cases (option : MapOption) (rs : List Row) :
    (rs.findSome? (·.missing? option.columns) = none ∧ ∃ m, build option rs = .ok m) ∨
      ∃ c, rs.findSome? (·.missing? option.columns) = some c ∧
        build option rs = .error (.columnNotFound c) := by
  obtain ⟨key, asList, fields⟩ := option
  by_cases hsingle : ∃ field, fields = .single field
  · obtain ⟨field, rfl⟩ := hsingle
    obtain ⟨hnone, ps, -, hbuild⟩ | ⟨c, hc, hbuild⟩ := build_single key field rs
    · exact Or.inl ⟨hnone, _, hbuild asList⟩
    · exact Or.inr ⟨c, hc, hbuild asList⟩
  · obtain ⟨hnone, ps, -, hbuild⟩ | ⟨c, hc, hbuild⟩ :=
      build_rows fields (fun field h => hsingle ⟨field, h⟩) key rs
    · exact Or.inl ⟨hnone, _, hbuild asList⟩
    · exact Or.inr ⟨c, hc, hbuild asList⟩

theorem build_error_iff (option : MapOption) (rs : List Row) :
    (∃ e, build option rs = .error e) ↔ ∃ r ∈ rs, ∃ c ∈ option.columns, r.get? c = none := by
  obtain ⟨hnone, m, hm⟩ | ⟨c, hc, herror⟩ := build_cases option rs
  · have hall := findSome?_missing?_eq_none_iff.1 hnone
    refine ⟨?_, fun h => absurd h hall⟩
    rintro ⟨e, he⟩
    rw [hm] at he
    cases he
  · refine ⟨fun _ => ?_, fun _ => ⟨_, herror⟩⟩
    by_contra hall
    rw [findSome?_missing?_eq_none_iff.2 hall] at hc
    cases hc

/-- Collecting fails exactly if some row has no value for the key column or for one of the fields'
columns, and then names the first such column of the first such row. Otherwise each row contributes
its key and its part. The keys of the map are those of the rows in the order of their first places;
with lists, all parts of a key stand under it in order, so that none is lost or doubled; without
lists, the map has the same keys with the last part of each. -/
theorem build_collects (option : MapOption) (rs : List Row) :
    ((∃ e, build option rs = .error e) ↔ ∃ r ∈ rs, ∃ c ∈ option.columns, r.get? c = none) ∧
      ((∃ c, rs.findSome? (·.missing? option.columns) = some c ∧
          build option rs = .error (.columnNotFound c)) ∨
        match option.fields with
        | .single field => ∃ ps fs,
          Contributes option.key (fun r v => r.get? field = some v) rs ps ∧
          build { option with asList := true } rs = .ok (valueLists (grouped ps)) ∧
          build { option with asList := false } rs = .ok (values fs) ∧
          ((grouped ps).flatMap (·.2)).Perm (ps.map (·.2)) ∧ Latest (grouped ps) fs
        | fields => ∃ ps fs,
          Contributes option.key (fun r s => r.Gives fields s) rs ps ∧
          build { option with asList := true } rs = .ok (rowLists (grouped ps)) ∧
          build { option with asList := false } rs = .ok (rows fs) ∧
          ((grouped ps).flatMap (·.2)).Perm (ps.map (·.2)) ∧ Latest (grouped ps) fs) := by
  refine ⟨build_error_iff option rs, ?_⟩
  obtain ⟨key, asList, fields⟩ := option
  have hrows := fun h => build_rows fields h key rs
  cases fields with
  | single field =>
    obtain ⟨-, ps, hps, hbuild⟩ | ⟨c, hc, hbuild⟩ := build_single key field rs
    · exact Or.inr ⟨ps, lastOfEach ps, hps, hbuild true, hbuild false, perm_grouped ps,
        latest_lastOfEach ps⟩
    · exact Or.inl ⟨c, hc, hbuild asList⟩
  | many | all =>
    obtain ⟨-, ps, hps, hbuild⟩ | ⟨c, hc, hbuild⟩ := hrows (by simp)
    · exact Or.inr ⟨ps, lastOfEach ps, hps, hbuild true, hbuild false, perm_grouped ps,
        latest_lastOfEach ps⟩
    · exact Or.inl ⟨c, hc, hbuild asList⟩

end FetchMap

end SqlStatement
