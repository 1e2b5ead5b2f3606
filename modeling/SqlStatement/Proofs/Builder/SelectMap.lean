import SqlStatement.Builder.Run
import SqlStatement.Proofs.Row.Views
import SqlStatement.Proofs.Text

/-!
# Maps of what was selected for them

A selection for a map names its columns twice: in the list of expressions to select, each once and
trimmed, and in the option that says how the rows are collected, by the names the database gives to
the columns. If the rows come back with these names, no column is missing. If the names also differ
from each other, each row gives the cells at the places of the key's and the fields' expressions.

* `FetchMap.Collects`, `FetchMap.build_selected` : maps of selected rows;
* `Builder.fetchMap_selectMap` : the map that a query gives.
-/

namespace SqlStatement

/-! ## Trimmed expressions -/

theorem resultColumn_trim (expr : String) : resultColumn (Text.trim expr) = resultColumn expr := by
  unfold resultColumn
  rw [Text.toList_trim, Text.trimWhile_trimWhile]

/-! ## Cells by name and by place -/

theorem lastIndex?_of_nodup {name : String} {ns : List String} {i : Nat} (hn : ns.Nodup)
    (h : ns[i]? = some name) : lastIndex? name ns = some i := by
  obtain ⟨j, hj⟩ := Option.ne_none_iff_exists'.1 (lastIndex?_ne_none (List.mem_of_getElem? h))
  have hlength : j < ns.length := (List.getElem?_eq_some_iff.1 (getElem?_of_lastIndex? hj)).1
  have hij : j = i :=
    (List.getElem?_inj hlength hn).1 ((getElem?_of_lastIndex? hj).trans h.symm)
  rw [hj, hij]

namespace Row

/-- The row is one of a result for the selected expressions: its columns have their names, and each
has a value. -/
structure IsFor (selected : List String) (r : Row) : Prop where
  columns : r.columns = selected.map resultColumn
  values : r.values.length = r.columns.length

instance (selected : List String) (r : Row) : Decidable (r.IsFor selected) :=
  decidable_of_iff
    (r.columns = selected.map resultColumn ∧ r.values.length = r.columns.length)
    ⟨fun h => ⟨h.1, h.2⟩, fun h => ⟨h.columns, h.values⟩⟩

/-- The cell at the place where the expression was selected. -/
def cellOf? (selected : List String) (r : Row) (expr : String) : Option Value :=
  r.values[selected.idxOf (Text.trim expr)]?

variable {r : Row} {selected : List String} {expr : String}

theorem IsFor.get?_ne_none (h : r.IsFor selected) (hexpr : Text.trim expr ∈ selected) :
    r.get? (resultColumn expr) ≠ none := by
  have hname : resultColumn expr ∈ r.columns := by
    rw [h.columns, ← resultColumn_trim]
    exact List.mem_map_of_mem hexpr
  exact (get?_ne_none_iff h.values).2 hname

theorem IsFor.get?_resultColumn (h : r.IsFor selected) (hexpr : Text.trim expr ∈ selected)
    (hn : (selected.map resultColumn).Nodup) :
    r.get? (resultColumn expr) = r.cellOf? selected expr := by
  have hplace : (selected.map resultColumn)[selected.idxOf (Text.trim expr)]? =
      some (resultColumn expr) := by
    rw [List.getElem?_map, List.getElem?_idxOf hexpr, Option.map_some, resultColumn_trim]
  unfold get? cellOf?
  rw [h.columns, lastIndex?_of_nodup hn hplace, Option.bind_some]

end Row

/-! ## Selections for maps -/

namespace Draft

variable {d : Draft} {key expr : String} {fields : MapFields}

theorem mem_mapProjection (hall : fields ≠ .all) :
    expr ∈ mapProjection key fields ↔ expr ∈ key :: fields.columns := by
  cases fields with
  | all => exact absurd rfl hall
  | single field => exact mem_distinct
  | many fields => exact mem_distinct

theorem columns_selectMap : (d.selectMap key fields).columns =
    ((mapProjection (splitListMark key).1 fields).map Text.trim).filter (· ≠ "") := rfl

theorem mapOption_selectMap : (d.selectMap key fields).mapOption = some
    ⟨resultColumn (splitListMark key).1, (splitListMark key).2, resultFields fields⟩ := rfl

theorem mem_columns_selectMap (hall : fields ≠ .all)
    (hexpr : expr ∈ (splitListMark key).1 :: fields.columns)
    (hblank : Text.isBlankText expr = false) :
    Text.trim expr ∈ (d.selectMap key fields).columns := by
  have hne : Text.trim expr ≠ "" := fun h => by
    rw [Text.trim_eq_empty_iff.1 h] at hblank
    cases hblank
  have hmem := List.mem_map_of_mem (f := Text.trim) ((mem_mapProjection hall).2 hexpr)
  rw [columns_selectMap]
  exact List.mem_filter.2 ⟨hmem, by simpa using hne⟩

end Draft

/-! ## The maps -/

theorem Contributes.imp_of_mem {α : Type} {column : String} {R : Row → α → Prop} {rs : List Row}
    {ps : List (MapKey × α)} (h : Contributes column R rs ps) {S : Row → MapKey × α → Prop}
    (hS : ∀ r ∈ rs, ∀ p, (r.get? column).map MapKey.ofValue = some p.1 → R r p.2 → S r p) :
    List.Forall₂ S rs ps := by
  have hmem := (List.forall₂_and_left rs ps).2 ⟨fun _ hr => hr, h⟩
  exact hmem.imp fun r p hp => hS r hp.1 p hp.2.1 hp.2.2

namespace FetchMap

/-- Each row stands in the map under the cell of the key's expression with the cells of the fields'
expressions in the order asked for: a single cell, or a row with the names of the fields as columns.
-/
inductive Collects (cell? : Row → String → Option Value) (key : String) (asList : Bool)
    (rs : List Row) : MapFields → FetchMap → Prop where
  | single {field : String} {ps : List (MapKey × Value)}
      (h : List.Forall₂ (fun r p => (cell? r key).map MapKey.ofValue = some p.1 ∧
        cell? r field = some p.2) rs ps) :
      Collects cell? key asList rs (.single field) (ofCells asList ps)
  | many {fields : List String} {ps : List (MapKey × Row)}
      (h : List.Forall₂ (fun r p => (cell? r key).map MapKey.ofValue = some p.1 ∧
        fields.map (cell? r) = p.2.values.map some ∧
        p.2.columns = fields.map resultColumn) rs ps) :
      Collects cell? key asList rs (.many fields) (ofRows asList ps)

theorem build_selected {selected : List String} {key : String} {fields : MapFields} {rs : List Row}
    (hall : fields ≠ .all) (hselected : ∀ e ∈ key :: fields.columns, Text.trim e ∈ selected)
    (hrows : ∀ r ∈ rs, r.IsFor selected) (asList : Bool) :
    ∃ m, build ⟨resultColumn key, asList, Draft.resultFields fields⟩ rs = .ok m ∧
      ((selected.map resultColumn).Nodup →
        m.Collects (Row.cellOf? selected) key asList rs fields) := by
  have hnone : rs.findSome? (·.missing? ((key :: fields.columns).map resultColumn)) = none := by
    rw [findSome?_missing?_eq_none_iff]
    rintro ⟨r, hr, c, hc, hmissing⟩
    obtain ⟨e, he, rfl⟩ := List.mem_map.1 hc
    exact (hrows r hr).get?_ne_none (hselected e he) hmissing
  -- The last column with a name is the only one, so a name leads to the place of its expression.
  have hcell : (selected.map resultColumn).Nodup → ∀ r ∈ rs, ∀ e ∈ key :: fields.columns,
      r.get? (resultColumn e) = r.cellOf? selected e :=
    fun hn r hr e he => (hrows r hr).get?_resultColumn (hselected e he) hn
  cases fields with
  | all => exact absurd rfl hall
  | single field =>
    obtain ⟨-, ps, hps, hbuild⟩ | ⟨c, hc, -⟩ :=
      build_single (resultColumn key) (resultColumn field) rs
    · refine ⟨_, hbuild asList, fun hn => .single ?_⟩
      refine hps.imp_of_mem fun r hr p hkey hfield => ?_
      rw [hcell hn r hr key (by simp)] at hkey
      rw [hcell hn r hr field (by simp [MapFields.columns])] at hfield
      exact ⟨hkey, hfield⟩
    · cases hnone.symm.trans hc
  | many fields =>
    obtain ⟨-, ps, hps, hbuild⟩ | ⟨c, hc, -⟩ :=
      build_rows (.many (fields.map resultColumn)) (by simp) (resultColumn key) rs
    · refine ⟨_, hbuild asList, fun hn => .many ?_⟩
      refine hps.imp_of_mem fun r hr p hkey ⟨hcolumns, hvalues⟩ => ?_
      rw [hcell hn r hr key (by simp)] at hkey
      refine ⟨hkey, ?_, hcolumns⟩
      rw [← hvalues, List.map_map]
      refine List.map_congr_left fun e he => (hcell hn r hr e ?_).symm
      exact List.mem_cons_of_mem key he
    · cases hnone.symm.trans hc

end FetchMap

/-! ## Queries -/

theorem Query.fetchMap_none {q : Query} {option : MapOption} {d : Driver} {rs : List Row}
    (hoption : q.mapOption = some option) (hrs : (q.fetchAll d).1 = .ok rs) :
    (q.fetchMap d none).1 = FetchMap.build option rs := by
  unfold fetchMap
  rw [Option.none_or, hoption]
  show (q.fetchAll d).1 >>= FetchMap.build option = FetchMap.build option rs
  rw [hrs]
  rfl

namespace Builder

theorem mapOption_build {b : Builder} {q : Query} (h : b.build.1 = .ok q) :
    q.mapOption = b.draft.mapOption := by
  unfold build at h
  cases hs : b.toSql.1 with
  | error e =>
    rw [hs] at h
    cases h
  | ok s =>
    rw [hs] at h
    cases h
    rfl

/-- A query was built from a draft with the columns and the map option of a selection by a key and
fields, none of them blank, and its run gave rows with the names of the selected expressions. Then
collecting them fails for no missing column, and if the names differ from each other, the map is
that of the cells at the places of the expressions. -/
theorem fetchMap_selectMap {b : Builder} {d : Draft} {key : String} {fields : MapFields} {q : Query}
    {c : ConnectionId} {driver : Driver} {rs : List Row} (hall : fields ≠ .all)
    (hkey : Text.isBlankText (splitListMark key).1 = false)
    (hfields : ∀ f ∈ fields.columns, Text.isBlankText f = false)
    (hcolumns : b.draft.columns = (d.selectMap key fields).columns)
    (hoption : b.draft.mapOption = (d.selectMap key fields).mapOption)
    (hq : b.build.1 = .ok q) (hrs : ((q.setConnection c).fetchAll driver).1 = .ok rs)
    (hrows : ∀ r ∈ rs, r.IsFor b.draft.columns) :
    ∃ m, ((q.setConnection c).fetchMap driver none).1 = .ok m ∧
      ((b.draft.columns.map resultColumn).Nodup →
        m.Collects (Row.cellOf? b.draft.columns) (splitListMark key).1 (splitListMark key).2 rs
          fields) := by
  have hmap : (q.setConnection c).mapOption = some
      ⟨resultColumn (splitListMark key).1, (splitListMark key).2, Draft.resultFields fields⟩ :=
    (mapOption_build hq).trans (hoption.trans Draft.mapOption_selectMap)
  have hblank : ∀ e ∈ (splitListMark key).1 :: fields.columns, Text.isBlankText e = false :=
    List.forall_mem_cons.2 ⟨hkey, hfields⟩
  have hselected : ∀ e ∈ (splitListMark key).1 :: fields.columns,
      Text.trim e ∈ b.draft.columns := by
    rw [hcolumns]
    exact fun e he => Draft.mem_columns_selectMap hall he (hblank e he)
  rw [Query.fetchMap_none hmap hrs]
  exact FetchMap.build_selected hall hselected hrows _

/-- The sales of books under their authors. -/
def sales : Builder :=
  (onTable (.plain "book b")).selectMap " b.`author` [] "
    (.many ["SUM(b.sold)", "b.name AS title"])

def salesQuery : Query :=
  { sql := "SELECT b.`author`,SUM(b.sold),b.name AS title FROM book b"
    mapOption := some ⟨"author", true, .many ["SUM(b.sold)", "title"]⟩ }

def salesRows : List Row :=
  Server.rowsOf ["author", "SUM(b.sold)", "title"]
    [[.int 7, .int 1, .text "a"], [.int 3, .int 2, .text "b"], [.int 7, .int 4, .text "c"]]

def salesDriver : Driver := (({} : Driver).connect true).modifyServerOf 0 (·.enqueue salesRows)

/-- A list key and qualified names. -/
theorem fetchMap_selectMap_sales :
    ∃ m, ((salesQuery.setConnection 0).fetchMap salesDriver none).1 = .ok m ∧
      m.Collects (Row.cellOf? sales.draft.columns) "b.`author`" true salesRows
        (.many ["SUM(b.sold)", "b.name AS title"]) := by
  have hbuild : sales.build.1 = .ok salesQuery := by decide +kernel
  have hrun : ((salesQuery.setConnection 0).fetchAll salesDriver).1 = .ok salesRows := by
    decide +kernel
  have hrows : ∀ r ∈ salesRows, r.IsFor sales.draft.columns := by decide +kernel
  have hdraft : sales.draft = (onTable (.plain "book b")).draft.selectMap " b.`author` [] "
      (.many ["SUM(b.sold)", "b.name AS title"]) := draft_selectMap ..
  obtain ⟨m, hm, hcollects⟩ := fetchMap_selectMap (by simp) (by decide +kernel) (by decide +kernel)
    (congrArg Draft.columns hdraft) (congrArg Draft.mapOption hdraft) hbuild hrun hrows
  exact ⟨m, hm, hcollects (by decide +kernel)⟩

end Builder

end SqlStatement
