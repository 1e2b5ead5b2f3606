import SqlStatement.Proofs.Builder.Assignments
import SqlStatement.Proofs.Text

/-!
# Insertions, assignment by assignment

Each assignment of an insertion gives a column together with what is written for it, or nothing, or
it is refused. The columns and what is written stand in two lists that are built in one pass.

* `Inserts`, `InsertRefuses` : what an assignment comes to, and which ones are refused;
* `Builder.toSql_insert` : insertions that write into a column, or are refused;
* `Builder.toSql_insert_ok_iff` : which insertions have a statement, also without any column.
-/

namespace SqlStatement

open Placement

/-! ## One assignment -/

/-- What an assignment comes to in an insertion. -/
structure InsertItem where
  /-- a column, with what is written for it -/
  row : Option (String × String)
  /-- the values that are placed, with their numbers -/
  placed : List (Nat × Value)

/-- What assignments come to. An expression is divided at its first equals sign, and its right-hand
side counts without the blanks around it. -/
inductive Inserts : Assignment → InsertItem → Prop
  | column (name : String) (v : Value) (n : Nat) :
    Inserts (.column name v) ⟨some (name, placeholder n), [(n, v)]⟩
  /-- an expression without a right-hand side -/
  | undivided {expr : String} (h : '=' ∉ expr.toList) : Inserts (.expr (.text expr)) ⟨none, []⟩
  | blank {column content : String} (h : '=' ∉ column.toList)
    (hcontent : Text.isBlankText content = true) :
    Inserts (.expr (.text (column ++ "=" ++ content))) ⟨none, []⟩
  /-- a placeholder of the caller -/
  | caller {column content name : String} (h : '=' ∉ column.toList)
    (hcontent : Text.trim content = ":" ++ name) :
    Inserts (.expr (.text (column ++ "=" ++ content))) ⟨some (Text.trim column, ":" ++ name), []⟩
  /-- SQL after its mark -/
  | sql {column content sql : String} (h : '=' ∉ column.toList)
    (hcontent : Text.trim content = "\x7b:" ++ sql) :
    Inserts (.expr (.text (column ++ "=" ++ content))) ⟨some (Text.trim column, sql), []⟩
  /-- a literal, which becomes a value without the quotes around it -/
  | literal {column content : String} (n : Nat) (h : '=' ∉ column.toList)
    (hblank : Text.isBlankText content = false)
    (hcaller : ∀ name, Text.trim content ≠ ":" ++ name)
    (hsql : ∀ sql, Text.trim content ≠ "\x7b:" ++ sql) (hmark : Text.trim content ≠ "?") :
    Inserts (.expr (.text (column ++ "=" ++ content)))
      ⟨some (Text.trim column, placeholder n), [(n, (Value.text (Text.trim content)).unquoted)]⟩

/-- An assignment that an insertion refuses at a place of the values, and the error: an expression
that is no text, or one whose right-hand side is a lone question mark. -/
inductive InsertRefuses (index : Nat) : Assignment → Error → Prop
  | noText {v : Value} (h : ∀ s, v ≠ .text s) :
    InsertRefuses index (.expr v) (.invalidExpression .insert index v.typeName)
  | mark {column content : String} (h : '=' ∉ column.toList)
    (hcontent : Text.trim content = "?") :
    InsertRefuses index (.expr (.text (column ++ "=" ++ content))) (.unsupportedPlaceholder "?")

/-- Whether the error is about a value that cannot be written: one of a wrong type, or a placeholder
without a name. -/
def Error.refusesValue : Error → Bool
  | invalidExpression _ _ _ => true
  | booleanUpdate _ => true
  | unsupportedPlaceholder _ => true
  | _ => false

theorem InsertRefuses.refusesValue {index : Nat} {a : Assignment} {e : Error}
    (h : InsertRefuses index a e) : e.refusesValue = true := by
  cases h with
  | noText => rfl
  | mark => rfl

theorem Inserts.eq_of_row_eq_none {a : Assignment} {item : InsertItem} (h : Inserts a item)
    (hrow : item.row = none) : item = ⟨none, []⟩ := by
  cases h with
  | undivided => rfl
  | blank => rfl
  | column | caller | sql | literal => cases hrow

namespace Assignment

def Contributes (a : Assignment) : Prop := ∃ item, Inserts a item ∧ item.row.isSome = true

/-- The assignment is refused, wherever it stands. -/
def RefusedByInsert (a : Assignment) : Prop := ∃ index e, InsertRefuses index a e

end Assignment

theorem Assignment.RefusedByInsert.at {a : Assignment} (h : a.RefusedByInsert) (index : Nat) :
    ∃ e, InsertRefuses index a e := by
  obtain ⟨_, _, ha⟩ := h
  cases ha with
  | noText hv => exact ⟨_, .noText hv⟩
  | mark hcolumn hcontent => exact ⟨_, .mark hcolumn hcontent⟩

def insertItem (p : Placement) : Option Contribution → InsertItem
  | none => ⟨none, []⟩
  | some c =>
    let part := Template.part p [c.content]
    ⟨some (c.column, part.text), part.placed⟩

theorem insertContent_caller (name : String) :
    insertContent (":" ++ name) = .ok (.text (":" ++ name)) := by
  unfold insertContent
  rw [Text.dropStart?_eq_some_iff.2 rfl]
  rfl

theorem insertContent_sql (sql : String) : insertContent ("\x7b:" ++ sql) = .ok (.text sql) := by
  have hcaller : Text.dropStart? ":" ("\x7b:" ++ sql) = none := by
    simp [Text.dropStart?, Text.dropStartIn?]
  unfold insertContent
  rw [hcaller, Text.dropStart?_eq_some_iff.2 rfl]
  rfl

theorem insertContent_literal {content : String} (hcaller : ∀ name, content ≠ ":" ++ name)
    (hsql : ∀ sql, content ≠ "\x7b:" ++ sql) (hmark : content ≠ "?") :
    insertContent content = .ok (.value (Value.text content).unquoted) := by
  unfold insertContent
  rw [Text.dropStart?_eq_none_iff.2 hcaller, Text.dropStart?_eq_none_iff.2 hsql]
  exact if_neg hmark

theorem insertExpression_undivided {expr : String} (h : '=' ∉ expr.toList) :
    insertExpression expr = .ok none := by
  unfold insertExpression
  rw [Text.cut?_eq_none_iff.2 h]

theorem insertExpression_divided {column content : String} (h : '=' ∉ column.toList) :
    insertExpression (column ++ "=" ++ content) =
      if Text.isBlankText content then .ok none
      else (insertContent (Text.trim content)).map fun piece =>
        some ⟨Text.trim column, piece⟩ := by
  have hcut : Text.cut? '=' (column ++ "=" ++ content) = some (column, content) :=
    Text.cut?_eq_some_iff.2 ⟨rfl, h⟩
  unfold insertExpression
  simp only [hcut, Text.trim_eq_empty_iff]

theorem insertExpression_content {column content : String} (h : '=' ∉ column.toList)
    (hblank : Text.isBlankText content = false) {piece : Piece}
    (hpiece : insertContent (Text.trim content) = .ok piece) :
    insertExpression (column ++ "=" ++ content) = .ok (some ⟨Text.trim column, piece⟩) := by
  rw [insertExpression_divided h, if_neg (Bool.eq_false_iff.1 hblank), hpiece]
  rfl

theorem insertExpression_mark {column content : String} (h : '=' ∉ column.toList)
    (hcontent : Text.trim content = "?") :
    insertExpression (column ++ "=" ++ content) = .error (.unsupportedPlaceholder "?") := by
  have hblank : Text.isBlankText content = false := by
    rw [Bool.eq_false_iff, ne_eq, ← Text.trim_eq_empty_iff, hcontent]
    decide
  rw [insertExpression_divided h, if_neg (Bool.eq_false_iff.1 hblank), hcontent]
  rfl

theorem insertAssignment_of_refuses {index : Nat} {a : Assignment} {e : Error}
    (h : InsertRefuses index a e) : insertAssignment index a = .error e := by
  cases h with
  | @noText v hv =>
    rcases v with _ | b | n | x | s
    · rfl
    · rfl
    · rfl
    · rfl
    · exact absurd rfl (hv s)
  | mark hcolumn hcontent => exact insertExpression_mark hcolumn hcontent

theorem insertAssignment_of_inserts {a : Assignment} {item : InsertItem} (h : Inserts a item)
    (index : Nat) :
    ∃ c, insertAssignment index a = .ok c ∧ c.map (·.column) = item.row.map (·.1) := by
  have hblank : ∀ {content start rest : String}, Text.trim content = start ++ rest → start ≠ "" →
      Text.isBlankText content = false := by
    intro content start rest htrim hstart
    rw [Bool.eq_false_iff, ne_eq, ← Text.trim_eq_empty_iff, htrim]
    simp [hstart]
  cases h with
  | column name v n => exact ⟨_, rfl, rfl⟩
  | undivided hexpr => exact ⟨none, insertExpression_undivided hexpr, rfl⟩
  | blank hcolumn hcontent =>
    exact ⟨none, (insertExpression_divided hcolumn).trans (if_pos hcontent), rfl⟩
  | @caller column content name hcolumn hcontent =>
    have hpiece : insertContent (Text.trim content) = .ok (.text (":" ++ name)) := by
      rw [hcontent, insertContent_caller]
    exact ⟨_, insertExpression_content hcolumn (hblank hcontent (by decide)) hpiece, rfl⟩
  | @sql column content sql hcolumn hcontent =>
    have hpiece : insertContent (Text.trim content) = .ok (.text sql) := by
      rw [hcontent, insertContent_sql]
    exact ⟨_, insertExpression_content hcolumn (hblank hcontent (by decide)) hpiece, rfl⟩
  | literal n hcolumn hcontent hcaller hsql hmark =>
    have hpiece := insertContent_literal hcaller hsql hmark
    exact ⟨_, insertExpression_content hcolumn hcontent hpiece, rfl⟩

theorem insertItem_text (p : Placement) (column sql : String) :
    insertItem p (some ⟨column, .text sql⟩) = ⟨some (column, sql), []⟩ := by
  rw [insertItem, Template.part_text]

theorem insertItem_value (p : Placement) (column : String) (v : Value) :
    insertItem p (some ⟨column, .value v⟩) =
      ⟨some (column, placeholder p.free), [(p.free, v)]⟩ := by
  rw [insertItem, Template.part_value]

theorem insertExpression_cases (index : Nat) (expr : String) :
    (∃ e, InsertRefuses index (.expr (.text expr)) e) ∨
      ∃ c, insertExpression expr = .ok c ∧ ∀ p, Inserts (.expr (.text expr)) (insertItem p c) := by
  rcases hcut : Text.cut? '=' expr with _ | ⟨column, content⟩
  · have hexpr := Text.cut?_eq_none_iff.1 hcut
    exact Or.inr ⟨none, insertExpression_undivided hexpr, fun p => .undivided hexpr⟩
  obtain ⟨rfl, hcolumn⟩ := Text.cut?_eq_some_iff.1 hcut
  by_cases hblank : Text.isBlankText content = true
  · exact Or.inr ⟨none, (insertExpression_divided hcolumn).trans (if_pos hblank),
      fun p => .blank hcolumn hblank⟩
  rw [Bool.not_eq_true] at hblank
  by_cases hmark : Text.trim content = "?"
  · exact Or.inl ⟨_, .mark hcolumn hmark⟩
  by_cases hcaller : ∃ name, Text.trim content = ":" ++ name
  · obtain ⟨name, hname⟩ := hcaller
    have hpiece : insertContent (Text.trim content) = .ok (.text (":" ++ name)) := by
      rw [hname, insertContent_caller]
    refine Or.inr ⟨_, insertExpression_content hcolumn hblank hpiece, fun p => ?_⟩
    rw [insertItem_text]
    exact .caller hcolumn hname
  by_cases hsql : ∃ sql, Text.trim content = "\x7b:" ++ sql
  · obtain ⟨sql, hsql⟩ := hsql
    have hpiece : insertContent (Text.trim content) = .ok (.text sql) := by
      rw [hsql, insertContent_sql]
    refine Or.inr ⟨_, insertExpression_content hcolumn hblank hpiece, fun p => ?_⟩
    rw [insertItem_text]
    exact .sql hcolumn hsql
  rw [not_exists] at hcaller hsql
  have hpiece := insertContent_literal hcaller hsql hmark
  refine Or.inr ⟨_, insertExpression_content hcolumn hblank hpiece, fun p => ?_⟩
  rw [insertItem_value]
  exact .literal p.free hcolumn hblank hcaller hsql hmark

theorem insertAssignment_cases (index : Nat) (a : Assignment) :
    (∃ e, InsertRefuses index a e) ∨
      ∃ c, insertAssignment index a = .ok c ∧ ∀ p, Inserts a (insertItem p c) := by
  rcases a with ⟨name, v⟩ | v
  · refine Or.inr ⟨some ⟨name, .value v⟩, rfl, fun p => ?_⟩
    rw [insertItem_value]
    exact .column name v p.free
  · by_cases hv : ∃ expr, v = .text expr
    · obtain ⟨expr, rfl⟩ := hv
      exact insertExpression_cases index expr
    · exact Or.inl ⟨_, .noText (not_exists.1 hv)⟩

namespace Assignment

variable {a : Assignment}

theorem refusedByInsert_iff : a.RefusedByInsert ↔ (insertAssignment 0 a).toOption = none := by
  constructor
  · rintro h
    obtain ⟨e, he⟩ := h.at 0
    rw [insertAssignment_of_refuses he]
    rfl
  · intro h
    obtain ⟨e, he⟩ | ⟨c, hc, -⟩ := insertAssignment_cases 0 a
    · exact ⟨0, e, he⟩
    · rw [hc] at h
      cases h

theorem contributes_iff :
    a.Contributes ↔ (insertAssignment 0 a).toOption.join.isSome = true := by
  constructor
  · rintro ⟨item, h, hrow⟩
    obtain ⟨c, hc, hcolumn⟩ := insertAssignment_of_inserts h 0
    have hsome := congrArg Option.isSome hcolumn
    rw [Option.isSome_map, Option.isSome_map, hrow] at hsome
    rw [hc]
    exact hsome
  · intro h
    obtain ⟨e, he⟩ | ⟨c, hc, hinserts⟩ := insertAssignment_cases 0 a
    · rw [insertAssignment_of_refuses he] at h
      cases h
    · rcases c with _ | c
      · rw [hc] at h
        cases h
      · exact ⟨_, hinserts {}, rfl⟩

instance : DecidablePred RefusedByInsert := fun _ => decidable_of_iff _ refusedByInsert_iff.symm

instance : DecidablePred Contributes := fun _ => decidable_of_iff _ contributes_iff.symm

end Assignment

/-! ## All assignments -/

theorem insertContributions_ok {as : List Assignment} (h : ∀ a ∈ as, ¬ a.RefusedByInsert)
    (index : Nat) : ∃ cs, insertContributions index as = .ok cs ∧ ∀ p : Placement,
      ∃ items, List.Forall₂ Inserts as items ∧
        let parts := Template.parts p (cs.map fun c => [c.content])
        (items.filterMap (·.row)).map (·.1) = cs.map (·.column) ∧
          (items.filterMap (·.row)).map (·.2) = parts.map (·.text) ∧
          items.flatMap (·.placed) = parts.flatMap (·.placed) := by
  induction as generalizing index with
  | nil => exact ⟨[], rfl, fun p => ⟨[], .nil, rfl, rfl, rfl⟩⟩
  | cons a as ih =>
    obtain ⟨cs, hcs, hitems⟩ := ih (fun b hb => h b (List.mem_cons_of_mem a hb)) (index + 1)
    obtain ⟨e, he⟩ | ⟨c, hc, hinserts⟩ := insertAssignment_cases index a
    · exact absurd ⟨index, e, he⟩ (h a List.mem_cons_self)
    · refine ⟨c.toList ++ cs, ?_, fun p => ?_⟩
      · rw [insertContributions, hc, hcs]
        rfl
      · rcases c with _ | c
        · obtain ⟨items, hfor, hcolumns, hrows, hplaced⟩ := hitems p
          exact ⟨_, .cons (hinserts p) hfor, hcolumns, hrows, hplaced⟩
        · -- the rest is placed after this contribution
          obtain ⟨items, hfor, hcolumns, hrows, hplaced⟩ := hitems (Template.fill [c.content] p).2
          exact ⟨_, .cons (hinserts p) hfor, congrArg (c.column :: ·) hcolumns,
            congrArg ((Template.fill [c.content] p).1 :: ·) hrows,
            congrArg (Template.placements [c.content] p ++ ·) hplaced⟩

theorem insertContributions_refused {before : List Assignment} {a : Assignment} {e : Error}
    (hbefore : ∀ b ∈ before, ¬ b.RefusedByInsert) {index : Nat}
    (h : InsertRefuses (index + before.length) a e) (after : List Assignment) :
    ∃ t, insertContributions index (before ++ a :: after) = .error ⟨t, e⟩ := by
  induction before generalizing index with
  | nil =>
    rw [List.length_nil, Nat.add_zero] at h
    rw [List.nil_append, insertContributions, insertAssignment_of_refuses h]
    exact ⟨[], rfl⟩
  | cons b before ih =>
    obtain ⟨e', he'⟩ | ⟨c, hc, -⟩ := insertAssignment_cases index b
    · exact absurd ⟨index, e', he'⟩ (hbefore b List.mem_cons_self)
    · have hnext : InsertRefuses (index + 1 + before.length) a e := by
        rwa [List.length_cons, Nat.add_comm before.length, ← Nat.add_assoc] at h
      obtain ⟨t, ht⟩ := ih (fun d hd => hbefore d (List.mem_cons_of_mem b hd)) hnext
      rw [List.cons_append, insertContributions, hc, ht]
      exact ⟨_, rfl⟩

theorem forall_inserts_nothing {as : List Assignment} {items : List InsertItem}
    (h : List.Forall₂ Inserts as items) (hnone : ∀ a ∈ as, ¬ a.Contributes) :
    (∀ a ∈ as, Inserts a ⟨none, []⟩) ∧
      items.filterMap (·.row) = [] ∧ items.flatMap (·.placed) = [] := by
  induction h with
  | nil => exact ⟨fun a ha => absurd ha List.not_mem_nil, rfl, rfl⟩
  | @cons a item as items ha has ih =>
    have hrow : item.row = none := by
      rw [← Option.not_isSome_iff_eq_none]
      exact fun hsome => hnone a List.mem_cons_self ⟨item, ha, hsome⟩
    obtain rfl := ha.eq_of_row_eq_none hrow
    obtain ⟨hall, hrows, hplaced⟩ := ih fun b hb => hnone b (List.mem_cons_of_mem a hb)
    exact ⟨List.forall_mem_cons.2 ⟨ha, hall⟩, hrows, hplaced⟩

/-! ## The statement -/

theorem fill_insertLists (cs : List Contribution) (p : Placement) :
    ((insertLists cs).fill p).1 = " (" ++ ",".intercalate (cs.map (·.column)) ++ ") VALUES (" ++
      ",".intercalate ((Template.parts p (cs.map fun c => [c.content])).map (·.text)) ++ ")" := by
  show (Template.fill (.text _ :: (Template.joinWith "," _ ++ [.text ")"])) p).1 = _
  rw [Template.fill_text, Template.fill_append_fst, Template.fill_joinWith, ← String.append_assoc]
  rfl

theorem placements_insertLists (cs : List Contribution) (p : Placement) :
    (insertLists cs).placements p =
      (Template.parts p (cs.map fun c => [c.content])).flatMap (·.placed) := by
  show Template.placements (.text _ :: (Template.joinWith "," _ ++ [.text ")"])) p = _
  rw [Template.placements_text, Template.placements_append, Template.placements_joinWith]
  exact List.append_nil _

namespace Builder

variable {r : Rendering} {table : String}

theorem compile_insert {d : Draft} (hcommand : d.command = .insert)
    (htable : d.table? = some table) : d.compile = d.compileInsert table := by
  unfold Draft.compile
  rw [htable]
  dsimp only
  rw [hcommand]

theorem insertion_empty (hcommand : r.draft.command = .insert)
    (htable : r.draft.table? = some table) (hvalues : r.draft.values.entries = []) :
    r.result = .error (.emptyValues .insert) := by
  refine Rendering.result_error (f := ⟨[], .emptyValues .insert⟩) ?_
  rw [compile_insert hcommand htable]
  unfold Draft.compileInsert Values.isEmpty
  rw [hvalues]
  rfl

theorem insertion_refused (hcommand : r.draft.command = .insert)
    (htable : r.draft.table? = some table) {before after : List Assignment} {a : Assignment}
    {e : Error} (hvalues : r.draft.values.entries = before ++ a :: after)
    (hbefore : ∀ b ∈ before, ¬ b.RefusedByInsert) (h : InsertRefuses before.length a e) :
    r.result = .error e := by
  have hfirst : InsertRefuses (0 + before.length) a e := by rwa [Nat.zero_add]
  obtain ⟨t, ht⟩ := insertContributions_refused hbefore hfirst after
  refine Rendering.result_error (f := ⟨t, e⟩) ?_
  rw [compile_insert hcommand htable]
  unfold Draft.compileInsert Values.isEmpty
  rw [hvalues, ht]
  cases before <;> rfl

/-- Any refused assignment leads to an error about a value. -/
theorem insertion_error (hcommand : r.draft.command = .insert)
    (htable : r.draft.table? = some table)
    (h : ∃ a ∈ r.draft.values.entries, a.RefusedByInsert) :
    ∃ e, r.result = .error e ∧ e.refusesValue = true := by
  obtain hnone | ⟨before, a, after, hsplit, hbefore, ha⟩ :=
    none_or_first Assignment.RefusedByInsert r.draft.values.entries
  · obtain ⟨a, ha, hrefused⟩ := h
    exact absurd hrefused (hnone a ha)
  · obtain ⟨e, he⟩ := ha.at before.length
    exact ⟨e, insertion_refused hcommand htable hsplit hbefore he, he.refusesValue⟩

/-- The statement of assignments none of which is refused. Its lists may be empty. -/
theorem insertion_ok (hcommand : r.draft.command = .insert) (htable : r.draft.table? = some table)
    (hvalues : r.draft.values.entries ≠ [])
    (h : ∀ a ∈ r.draft.values.entries, ¬ a.RefusedByInsert) :
    ∃ s items, r.result = .ok s ∧
      List.Forall₂ Inserts r.draft.values.entries items ∧
      let rows := items.filterMap (·.row)
      s.sql = (if r.draft.replace then "REPLACE" else "INSERT") ++ " INTO " ++ table ++ " (" ++
          ",".intercalate (rows.map (·.1)) ++ ") VALUES (" ++ ",".intercalate (rows.map (·.2)) ++
          ")" ∧
        s.params.Extends r.draft.criteria.boundParams (items.flatMap (·.placed)) := by
  obtain ⟨cs, hcs, hitems⟩ := insertContributions_ok h 0
  obtain ⟨items, hfor, hcolumns, hrows, hplaced⟩ := hitems r.start
  have hcompile : r.draft.compile = .ok (.text ((if r.draft.replace then "REPLACE" else "INSERT") ++
      " INTO " ++ table) :: insertLists cs) := by
    have hempty : r.draft.values.isEmpty = false := List.isEmpty_eq_false_iff.2 hvalues
    rw [compile_insert hcommand htable]
    unfold Draft.compileInsert
    rw [hempty, hcs]
    rfl
  obtain ⟨s, hresult, hsql, hparams⟩ := Rendering.result_ok hcompile
  refine ⟨s, items, hresult, hfor, ?_, ?_⟩
  · rw [hsql, hcolumns, hrows, Template.fill_text, fill_insertLists]
    simp only [String.append_assoc]
  · rwa [Template.placements_text, placements_insertLists, ← hplaced] at hparams

theorem insertion_cases (hcommand : r.draft.command = .insert)
    (htable : r.draft.table? = some table) :
    let as := r.draft.values.entries
    (as = [] ∧ r.result = .error (.emptyValues .insert)) ∨
      ((∃ a ∈ as, a.RefusedByInsert) ∧ ∃ e, r.result = .error e ∧ e.refusesValue = true) ∨
      ((as ≠ [] ∧ ∀ a ∈ as, ¬ a.RefusedByInsert) ∧ ∃ s, r.result = .ok s) := by
  intro as
  by_cases hvalues : as = []
  · exact Or.inl ⟨hvalues, insertion_empty hcommand htable hvalues⟩
  · by_cases hsome : ∃ a ∈ as, a.RefusedByInsert
    · exact Or.inr (Or.inl ⟨hsome, insertion_error hcommand htable hsome⟩)
    · have hnone : ∀ a ∈ as, ¬ a.RefusedByInsert := by simpa using hsome
      obtain ⟨s, -, hs, -⟩ := insertion_ok hcommand htable hvalues hnone
      exact Or.inr (Or.inr ⟨⟨hvalues, hnone⟩, s, hs⟩)

theorem insertion_error_iff (hcommand : r.draft.command = .insert)
    (htable : r.draft.table? = some table) :
    (∃ e, r.result = .error e ∧ e.refusesValue = true) ↔
      ∃ a ∈ r.draft.values.entries, a.RefusedByInsert := by
  obtain ⟨hvalues, hr⟩ | ⟨hsome, hr⟩ | ⟨⟨-, hnone⟩, s, hr⟩ := insertion_cases hcommand htable
  · simp [hr, hvalues, Error.refusesValue]
  · exact ⟨fun _ => hsome, fun _ => hr⟩
  · simpa [hr] using hnone

theorem insertion_empty_iff (hcommand : r.draft.command = .insert)
    (htable : r.draft.table? = some table) :
    r.result = .error (.emptyValues .insert) ↔ r.draft.values.entries = [] := by
  obtain ⟨hvalues, hr⟩ | ⟨⟨a, ha, -⟩, e, hr, hkind⟩ | ⟨⟨hvalues, -⟩, s, hr⟩ :=
    insertion_cases hcommand htable
  · simp [hr, hvalues]
  · have he : e ≠ .emptyValues .insert := by
      rintro rfl
      cases hkind
    simp [hr, he, List.ne_nil_of_mem ha]
  · simp [hr, hvalues]

theorem insertion_ok_iff (hcommand : r.draft.command = .insert)
    (htable : r.draft.table? = some table) :
    (∃ s, r.result = .ok s) ↔
      r.draft.values.entries ≠ [] ∧ ∀ a ∈ r.draft.values.entries, ¬ a.RefusedByInsert := by
  obtain ⟨hvalues, hr⟩ | ⟨⟨a, ha, hrefused⟩, e, hr, -⟩ | ⟨hall, hr⟩ :=
    insertion_cases hcommand htable
  · simp [hr, hvalues]
  · have hnone : ¬ ∀ a ∈ r.draft.values.entries, ¬ a.RefusedByInsert := fun h => h a ha hrefused
    simp [hr, hnone]
  · exact ⟨fun _ => hall, fun _ => hr⟩

/-- Without a column nothing is written between the brackets, and nothing is placed. -/
theorem insertion_columnless (hcommand : r.draft.command = .insert)
    (htable : r.draft.table? = some table) {s : Statement} (hs : r.result = .ok s)
    (hnone : ∀ a ∈ r.draft.values.entries, ¬ a.Contributes) :
    (∀ a ∈ r.draft.values.entries, Inserts a ⟨none, []⟩) ∧
      s.sql = (if r.draft.replace then "REPLACE" else "INSERT") ++ " INTO " ++ table ++
        " () VALUES ()" ∧
      s.params.entries = r.draft.criteria.boundParams.entries := by
  obtain ⟨hvalues, hrefused⟩ := (insertion_ok_iff hcommand htable).1 ⟨s, hs⟩
  obtain ⟨s', items, hs', hfor, hsql, hparams⟩ := insertion_ok hcommand htable hvalues hrefused
  obtain rfl := Except.ok.inj (hs.symm.trans hs')
  obtain ⟨hinserts, hrows, hplaced⟩ := forall_inserts_nothing hfor hnone
  refine ⟨hinserts, ?_, ?_⟩
  · rw [hsql, hrows]
    simp [String.append_assoc]
  · rw [hparams.entries, hplaced, List.map_nil, List.append_nil]

/-- Whatever has been done with a builder for an insertion into a table:

* it fails over a value that cannot be written exactly if some assignment is refused, and the error
  is that of the first one;
* if none is refused and some assignment gives a column, there is a statement. Its columns and what
  is written for them are those of the assignments in order, and its parameters are the caller's
  with one new binding for each value placed. -/
theorem toSql_insert (d : Draft) (n : Nat) (steps : List Step) {table : String}
    (hcommand : (run ⟨d, n, none⟩ steps).draft.command = .insert)
    (htable : (run ⟨d, n, none⟩ steps).draft.table? = some table) :
    let b := run ⟨d, n, none⟩ steps
    let as := b.draft.values.entries
    ((∃ e, b.toSql.1 = .error e ∧ e.refusesValue = true) ↔ ∃ a ∈ as, a.RefusedByInsert) ∧
      (∀ before a after e, as = before ++ a :: after → (∀ x ∈ before, ¬ x.RefusedByInsert) →
        InsertRefuses before.length a e → b.toSql.1 = .error e) ∧
      ((∀ a ∈ as, ¬ a.RefusedByInsert) → (∃ a ∈ as, a.Contributes) → ∃ s items,
        b.toSql.1 = .ok s ∧
          List.Forall₂ Inserts as items ∧
          let rows := items.filterMap (·.row)
          s.sql = (if b.draft.replace then "REPLACE" else "INSERT") ++ " INTO " ++ table ++ " (" ++
              ",".intercalate (rows.map (·.1)) ++ ") VALUES (" ++
              ",".intercalate (rows.map (·.2)) ++ ")" ∧
            s.params.Extends b.draft.criteria.boundParams (items.flatMap (·.placed))) := by
  obtain ⟨r, hdraft, hresult⟩ := toSql_run d n steps
  intro b as
  rw [← hdraft] at hcommand htable
  have has : as = r.draft.values.entries := by rw [hdraft]
  have hb : b.draft = r.draft := hdraft.symm
  rw [has, hb, hresult]
  refine ⟨insertion_error_iff hcommand htable, fun before a after e hvalues =>
    insertion_refused hcommand htable hvalues, ?_⟩
  rintro hnone ⟨a, ha, -⟩
  exact insertion_ok hcommand htable (List.ne_nil_of_mem ha) hnone

/-- A new user: a literal, a placeholder of the caller, SQL, an expression without a right-hand side
and a column. -/
def newUser : Draft where
  command := .insert
  table := some "user"
  values := .ofList
    [.expr (.text "name='Ash'"), .expr (.text "uid = :uid"), .expr (.text "created=\x7b:NOW()"),
      .expr (.text "note="), .column "city" (.text "'Pallet'")]
  criteria := { params := .ofList [(.named ":uid", .value (.int 7))] }

/-- Quotes are taken from around the literal, and not from the value of the column. -/
theorem toSql_insert_newUser :
    (∀ a ∈ newUser.values.entries, ¬ a.RefusedByInsert) ∧
      ∃ s items, (run ⟨newUser, 0, none⟩ []).toSql.1 = .ok s ∧
        List.Forall₂ Inserts newUser.values.entries items ∧
        s.sql = "INSERT INTO user (name,uid,created,city) VALUES (:dy0,:uid,NOW(),:dy1)" ∧
        s.params.Extends newUser.criteria.boundParams (items.flatMap (·.placed)) ∧
        s.params.entries = [(.named ":uid", .value (.int 7)), (.named ":dy0", .value (.text "Ash")),
          (.named ":dy1", .value (.text "'Pallet'"))] := by
  have hnone : ∀ a ∈ newUser.values.entries, ¬ a.RefusedByInsert := by decide +kernel
  have hsome : ∃ a ∈ newUser.values.entries, a.Contributes := by decide +kernel
  have hstatement : (run ⟨newUser, 0, none⟩ []).toSql.1 = .ok
      ⟨"INSERT INTO user (name,uid,created,city) VALUES (:dy0,:uid,NOW(),:dy1)", .ofList
        [(.named ":uid", .value (.int 7)), (.named ":dy0", .value (.text "Ash")),
          (.named ":dy1", .value (.text "'Pallet'"))]⟩ := by decide +kernel
  have htable : (run ⟨newUser, 0, none⟩ []).draft.table? = some "user" := rfl
  obtain ⟨s, items, hs, hfor, -, hparams⟩ := (toSql_insert newUser 0 [] rfl htable).2.2 hnone hsome
  obtain rfl := Except.ok.inj (hs.symm.trans hstatement)
  exact ⟨hnone, _, items, hs, hfor, rfl, hparams, rfl⟩

/-- Whatever has been done with a builder for an insertion into a table: an insertion has no values
only if there is no assignment at all. It has a statement as soon as there are assignments and none
is refused, and if none of them gives a column, its lists are empty and nothing is placed. -/
theorem toSql_insert_ok_iff (d : Draft) (n : Nat) (steps : List Step) {table : String}
    (hcommand : (run ⟨d, n, none⟩ steps).draft.command = .insert)
    (htable : (run ⟨d, n, none⟩ steps).draft.table? = some table) :
    let b := run ⟨d, n, none⟩ steps
    let as := b.draft.values.entries
    (b.toSql.1 = .error (.emptyValues .insert) ↔ as = []) ∧
      ((∃ s, b.toSql.1 = .ok s) ↔ as ≠ [] ∧ ∀ a ∈ as, ¬ a.RefusedByInsert) ∧
      ∀ s, b.toSql.1 = .ok s → (∃ a ∈ as, a.Contributes) ∨
        (∀ a ∈ as, Inserts a ⟨none, []⟩) ∧
          s.sql = (if b.draft.replace then "REPLACE" else "INSERT") ++ " INTO " ++ table ++
            " () VALUES ()" ∧
          s.params.entries = b.draft.criteria.boundParams.entries := by
  obtain ⟨r, hdraft, hresult⟩ := toSql_run d n steps
  intro b as
  rw [← hdraft] at hcommand htable
  have has : as = r.draft.values.entries := by rw [hdraft]
  have hb : b.draft = r.draft := hdraft.symm
  rw [has, hb, hresult]
  refine ⟨insertion_empty_iff hcommand htable, insertion_ok_iff hcommand htable, fun s hs => ?_⟩
  by_cases hsome : ∃ a ∈ r.draft.values.entries, a.Contributes
  · exact Or.inl hsome
  · exact Or.inr (insertion_columnless hcommand htable hs (by simpa using hsome))

/-- Rows that replace others, with two expressions that give no column. -/
def blankNotes : Draft where
  command := .insert
  table := some "t"
  values := .ofTexts ["note=", "visits"]
  replace := true

/-- The statement replaces a row by one without any values. -/
theorem toSql_insert_ok_iff_blankNotes :
    (run ⟨blankNotes, 0, none⟩ []).toSql.1 ≠ .error (.emptyValues .insert) ∧
      (∃ s, (run ⟨blankNotes, 0, none⟩ []).toSql.1 = .ok s) ∧
      ∀ s, (run ⟨blankNotes, 0, none⟩ []).toSql.1 = .ok s →
        s.sql = "REPLACE INTO t () VALUES ()" ∧ s.params.entries = [] := by
  have htable : (run ⟨blankNotes, 0, none⟩ []).draft.table? = some "t" := rfl
  obtain ⟨hempty, hok, hblank⟩ := toSql_insert_ok_iff blankNotes 0 [] rfl htable
  have hnone : ∀ a ∈ blankNotes.values.entries, ¬ a.RefusedByInsert := by decide +kernel
  have hcolumns : ¬ ∃ a ∈ blankNotes.values.entries, a.Contributes := by decide +kernel
  refine ⟨fun h => absurd (hempty.1 h) (by decide), hok.2 ⟨by decide, hnone⟩, fun s hs => ?_⟩
  obtain hsome | ⟨-, hsql, hparams⟩ := hblank s hs
  · exact absurd hsome hcolumns
  · exact ⟨hsql.trans (by decide +kernel), hparams⟩

/-- An expression without a right-hand side passes for values to insert. -/
theorem toSql_insert_nothing :
    let b := run ⟨{}, 0, none⟩
      [.set (.table (.plain "t")), .set (.values (.ofTexts ["note="])), .set .insert]
    b.draft.command = .insert ∧ b.draft.table? = some "t" ∧
      (∀ a ∈ b.draft.values.entries, ¬ a.Contributes) ∧
      b.toSql.1 = .ok ⟨"INSERT INTO t () VALUES ()", {}⟩ := by
  decide +kernel

end Builder

end SqlStatement
