import SqlStatement.Proofs.Builder.Insertions
import SqlStatement.Proofs.Builder.Tables
import SqlStatement.Proofs.Builder.Updates

/-!
# Literals and the quotes around them

A text that is set by an update, and a literal in an expression of an insertion, is bound without
the quotes at its ends: all of them, of both kinds, on either side. That is the text inside one pair
of quotes only if this text has no quotes at its own ends.

* `Unwraps` : a text and what stands inside its quotes;
* `Builder.toSql_literals` : the literals of updates and insertions.
-/

namespace SqlStatement

open Placement

/-! ## What stands inside quotes -/

/-- What is left of a text without one pair of equal quotes around it, which is the text itself if
there is no such pair. -/
inductive Unwraps : String → String → Prop
  | pair {q : Char} (hq : Value.isQuote q = true) (t : String) :
    Unwraps (String.singleton q ++ t ++ String.singleton q) t
  | bare {t : String} (h : ∀ q u, Value.isQuote q = true →
    t ≠ String.singleton q ++ u ++ String.singleton q) : Unwraps t t

namespace Unwraps

variable {t v : String}

theorem existsUnique (t : String) : ∃! v, Unwraps t v := by
  by_cases h : ∃ q v, Value.isQuote q = true ∧ t = String.singleton q ++ v ++ String.singleton q
  · obtain ⟨q, v, hq, rfl⟩ := h
    refine ⟨v, .pair hq v, fun w hw => ?_⟩
    generalize ht : String.singleton q ++ v ++ String.singleton q = t at hw
    cases hw with
    | pair _ =>
      have hlists := congrArg String.toList ht
      simp only [String.toList_append, String.toList_singleton, List.cons_append,
        List.cons.injEq] at hlists
      exact String.toList_inj.1 (List.append_inj_left' hlists.2 rfl).symm
    | bare hbare => exact absurd ht.symm (hbare q v hq)
  · have hbare : ∀ q v, Value.isQuote q = true →
        t ≠ String.singleton q ++ v ++ String.singleton q := fun q v hq ht => h ⟨q, v, hq, ht⟩
    refine ⟨t, .bare hbare, fun w hw => ?_⟩
    cases hw with
    | pair hq => exact absurd rfl (hbare _ _ hq)
    | bare => rfl

theorem unquoted_eq (h : Unwraps t v) : (Value.text t).unquoted = (Value.text v).unquoted := by
  cases h with
  | bare => rfl
  | @pair q hq =>
    have htrim : Text.trimWhile Value.isQuote ([q] ++ v.toList ++ [q]) =
        Text.trimWhile Value.isQuote v.toList :=
      Text.trimWhile_surrounded (by simpa using hq) (by simpa using hq) v.toList
    refine congrArg (Value.text <| String.ofList ·) (Eq.trans ?_ htrim)
    simp

/-- Stripping takes away one pair of quotes at most exactly if no other quotes come to light. -/
theorem unquoted_eq_iff (h : Unwraps t v) :
    (Value.text t).unquoted = .text v ↔ Text.Trimmed Value.isQuote v.toList := by
  rw [h.unquoted_eq, Value.unquoted, Value.text.injEq, ← String.toList_inj, Text.toList_strip,
    Text.trimWhile_eq_self_iff]

end Unwraps

/-! ## The items of literals -/

/-- A right-hand side that is not blank, nor a placeholder of the caller, nor SQL after its mark,
nor a lone question mark. -/
structure IsLiteral (content : String) : Prop where
  notBlank : Text.isBlankText content = false
  notCaller : ∀ name, Text.trim content ≠ ":" ++ name
  notSql : ∀ sql, Text.trim content ≠ "\x7b:" ++ sql
  notMark : Text.trim content ≠ "?"

theorem divided_eq {column column' content content' : String} (h : '=' ∉ column.toList)
    (h' : '=' ∉ column'.toList) (heq : column ++ "=" ++ content = column' ++ "=" ++ content') :
    column = column' ∧ content = content' := by
  have hcut : Text.cut? '=' (column ++ "=" ++ content) = some (column, content) :=
    Text.cut?_eq_some_iff.2 ⟨rfl, h⟩
  have hcut' : Text.cut? '=' (column ++ "=" ++ content) = some (column', content') :=
    Text.cut?_eq_some_iff.2 ⟨heq, h'⟩
  simpa [hcut] using hcut'

theorem Inserts.of_literal {column content : String} {item : InsertItem}
    (h : Inserts (.expr (.text (column ++ "=" ++ content))) item) (hcolumn : '=' ∉ column.toList)
    (hcontent : IsLiteral content) :
    ∃ k, item = ⟨some (Text.trim column, placeholder k),
      [(k, (Value.text (Text.trim content)).unquoted)]⟩ := by
  generalize ha : Assignment.expr (.text (column ++ "=" ++ content)) = a at h
  cases h with
  | column => cases ha
  | undivided hexpr =>
    cases ha
    exact absurd (by simp) hexpr
  | blank hcolumn' hblank =>
    obtain ⟨-, rfl⟩ := divided_eq hcolumn hcolumn' (by simpa using ha)
    exact absurd hblank (Bool.eq_false_iff.1 hcontent.notBlank)
  | caller hcolumn' hcaller =>
    obtain ⟨-, rfl⟩ := divided_eq hcolumn hcolumn' (by simpa using ha)
    exact absurd hcaller (hcontent.notCaller _)
  | sql hcolumn' hsql =>
    obtain ⟨-, rfl⟩ := divided_eq hcolumn hcolumn' (by simpa using ha)
    exact absurd hsql (hcontent.notSql _)
  | literal k hcolumn' =>
    obtain ⟨rfl, rfl⟩ := divided_eq hcolumn hcolumn' (by simpa using ha)
    exact ⟨k, rfl⟩

theorem Sets.of_text {name t : String} {item : Template.Part}
    (h : Sets (.column name (.text t)) item) :
    ∃ k, item = ⟨name ++ " = " ++ placeholder k, [(k, (Value.text t).unquoted)]⟩ := by
  cases h with
  | value name k => exact ⟨k, rfl⟩

theorem getElem?_of_forall₂ {α β : Type} {R : α → β → Prop} {as : List α} {bs : List β}
    (h : List.Forall₂ R as bs) {i : Nat} {a : α} (ha : as[i]? = some a) :
    ∃ b, bs[i]? = some b ∧ R a b := by
  induction h generalizing i with
  | nil => cases ha
  | @cons x y as bs hxy _ ih =>
    cases i with
    | zero =>
      cases ha
      exact ⟨y, rfl, hxy⟩
    | succ i => exact ih ha

/-! ## Statements that there are -/

namespace Builder

variable {r : Rendering} {s : Statement}

theorem table?_of_result (h : r.result = .ok s) : ∃ table, r.draft.table? = some table := by
  rcases htable : r.draft.table? with _ | table
  · rw [Rendering.result_missingTable_iff.2 htable] at h
    cases h
  · exact ⟨table, rfl⟩

theorem update_of_ok (hcommand : r.draft.command = .update) (h : r.result = .ok s) :
    ∃ table parts, r.draft.table? = some table ∧ r.draft.UpdatesBy parts ∧
      s.sql = parts.sql table ∧ s.params.Extends r.draft.criteria.boundParams parts.placed := by
  obtain ⟨table, htable⟩ := table?_of_result h
  obtain ⟨t, ht⟩ := Rendering.compile_of_result h
  have hvalues : r.draft.values.entries ≠ [] := by
    intro hempty
    have hcompile : r.draft.compile = .fail (.emptyValues .update) := by
      unfold Draft.compile Draft.compileUpdate Values.isEmpty
      rw [htable, hcommand, hempty]
      rfl
    rw [hcompile] at ht
    cases ht
  rw [compile_update hcommand htable hvalues] at ht
  obtain ⟨_, criteria, hset, hcriteria, -⟩ := Compiled.append_eq_ok ht
  obtain ⟨_, _, hupdate, -, -⟩ := Compiled.append_eq_ok hset
  obtain ⟨_, _, htext, -, -⟩ := Compiled.append_eq_ok hupdate
  obtain ⟨_, joins, -, hjoins, -⟩ := Compiled.append_eq_ok htext
  have hnone : ∀ a ∈ r.draft.values.entries, ¬ a.RefusedByUpdate := by
    intro a ha hrefused
    obtain ⟨e, he⟩ := (update_error_iff hcommand htable hvalues ⟨joins, hjoins⟩
      ⟨criteria, hcriteria⟩).2 ⟨a, ha, hrefused⟩
    cases he.symm.trans h
  obtain ⟨s', parts, hs', hparts⟩ :=
    update_ok hcommand htable hvalues ⟨joins, hjoins⟩ ⟨criteria, hcriteria⟩ hnone
  obtain rfl := Except.ok.inj (h.symm.trans hs')
  exact ⟨table, parts, htable, hparts⟩

theorem insertion_of_ok (hcommand : r.draft.command = .insert) (h : r.result = .ok s) :
    ∃ table items, r.draft.table? = some table ∧
      List.Forall₂ Inserts r.draft.values.entries items ∧
      let rows := items.filterMap (·.row)
      s.sql = (if r.draft.replace then "REPLACE" else "INSERT") ++ " INTO " ++ table ++ " (" ++
          ",".intercalate (rows.map (·.1)) ++ ") VALUES (" ++ ",".intercalate (rows.map (·.2)) ++
          ")" ∧
        s.params.Extends r.draft.criteria.boundParams (items.flatMap (·.placed)) := by
  obtain ⟨table, htable⟩ := table?_of_result h
  obtain ⟨hvalues, hnone⟩ := (insertion_ok_iff hcommand htable).1 ⟨s, h⟩
  obtain ⟨s', items, hs', hitems⟩ := insertion_ok hcommand htable hvalues hnone
  obtain rfl := Except.ok.inj (h.symm.trans hs')
  exact ⟨table, items, htable, hitems⟩

/-! ## Literals in statements -/

/-- Whatever has been done with a builder, when there is a statement:

* for each text that an update sets, the item of its column has a placeholder that is bound to the
  text without all quotes at its ends;
* so it is for each literal in an expression of an insertion;
* what is bound is the text without the one pair of quotes around it, if it has one, exactly where
  no quotes are left at the ends then. -/
theorem toSql_literals (d : Draft) (n : Nat) (steps : List Step) {s : Statement}
    (h : (run ⟨d, n, none⟩ steps).toSql.1 = .ok s) :
    let draft := (run ⟨d, n, none⟩ steps).draft
    let as := draft.values.entries
    (draft.command = .update → ∃ table parts, draft.table? = some table ∧
      draft.UpdatesBy parts ∧ s.sql = parts.sql table ∧
        ∀ (i : Nat) (name t : String), as[i]? = some (.column name (.text t)) → ∃ k,
          parts.items[i]? = some ⟨name ++ " = " ++ placeholder k, [(k, (Value.text t).unquoted)]⟩ ∧
            s.params.get? (generated k) = some (.value (Value.text t).unquoted)) ∧
      (draft.command = .insert → ∃ table items, draft.table? = some table ∧
        List.Forall₂ Inserts as items ∧
        let rows := items.filterMap (·.row)
        s.sql = (if draft.replace then "REPLACE" else "INSERT") ++ " INTO " ++ table ++ " (" ++
            ",".intercalate (rows.map (·.1)) ++ ") VALUES (" ++
            ",".intercalate (rows.map (·.2)) ++ ")" ∧
          ∀ (i : Nat) (column content : String),
            as[i]? = some (.expr (.text (column ++ "=" ++ content))) →
            '=' ∉ column.toList → IsLiteral content → ∃ k,
              items[i]? = some ⟨some (Text.trim column, placeholder k),
                [(k, (Value.text (Text.trim content)).unquoted)]⟩ ∧
                s.params.get? (generated k) =
                  some (.value (Value.text (Text.trim content)).unquoted)) ∧
      ∀ t, (∃! v, Unwraps t v) ∧ ∀ v, Unwraps t v →
        (Value.text t).unquoted = (Value.text v).unquoted ∧
          ((Value.text t).unquoted = .text v ↔ Text.Trimmed Value.isQuote v.toList) := by
  obtain ⟨r, hdraft, hresult⟩ := toSql_run d n steps
  rw [h] at hresult
  have hs := hresult.symm
  rw [← hdraft]
  refine ⟨fun hcommand => ?_, fun hcommand => ?_, fun t => ?_⟩
  · obtain ⟨table, parts, htable, hparts, hsql, hparams⟩ := update_of_ok hcommand hs
    refine ⟨table, parts, htable, hparts, hsql, fun i name t hi => ?_⟩
    obtain ⟨item, hitem, hsets⟩ := getElem?_of_forall₂ hparts.items hi
    obtain ⟨k, rfl⟩ := hsets.of_text
    have hplaced : (k, (Value.text t).unquoted) ∈ parts.placed := by
      have hmem := List.mem_flatMap_of_mem (f := (·.placed)) (List.mem_of_getElem? hitem)
        (List.mem_singleton_self _)
      unfold UpdateParts.placed
      simp [hmem]
    exact ⟨k, hitem, hparams.get?_placed hplaced⟩
  · obtain ⟨table, items, htable, hitems, hsql, hparams⟩ := insertion_of_ok hcommand hs
    refine ⟨table, items, htable, hitems, hsql, fun i column content hi hcolumn hcontent => ?_⟩
    obtain ⟨item, hitem, hinserts⟩ := getElem?_of_forall₂ hitems hi
    obtain ⟨k, rfl⟩ := hinserts.of_literal hcolumn hcontent
    have hplaced := List.mem_flatMap_of_mem (f := (·.placed)) (List.mem_of_getElem? hitem)
      (List.mem_singleton_self _)
    exact ⟨k, hitem, hparams.get?_placed hplaced⟩
  · exact ⟨Unwraps.existsUnique t, fun v hv => ⟨hv.unquoted_eq, hv.unquoted_eq_iff⟩⟩

/-- The name of a new user is bound without its quotes. -/
theorem toSql_literals_newUser :
    ∃ s, (run ⟨newUser, 0, none⟩ []).toSql.1 = .ok s ∧
      newUser.values.entries[0]? = some (.expr (.text ("name" ++ "=" ++ "'Ash'"))) ∧
      '=' ∉ "name".toList ∧ IsLiteral "'Ash'" ∧
      ∃ k, s.params.get? (generated k) = some (.value (.text "Ash")) := by
  obtain ⟨s, hs⟩ : ∃ s, (run ⟨newUser, 0, none⟩ []).toSql.1 = .ok s := ⟨_, rfl⟩
  have hliteral : IsLiteral "'Ash'" :=
    ⟨by decide, Text.dropStart?_eq_none_iff.1 (by decide),
      Text.dropStart?_eq_none_iff.1 (by decide), by decide⟩
  obtain ⟨-, hinsert, -⟩ := toSql_literals newUser 0 [] hs
  obtain ⟨_, _, -, -, -, hexpressions⟩ := hinsert rfl
  obtain ⟨k, -, hk⟩ := hexpressions 0 "name" "'Ash'" rfl (by decide) hliteral
  have hname : (Value.text (Text.trim "'Ash'")).unquoted = .text "Ash" := by decide
  rw [hname] at hk
  exact ⟨s, hs, rfl, by decide, hliteral, k, hk⟩

/-- An update of a height in feet and inches, which has no quotes around it and loses one. -/
theorem toSql_height :
    Unwraps "6'2\"" "6'2\"" ∧
      (run ⟨{}, 0, none⟩ [.set (.updateTable (.plain "t")
        (.ofList [.column "height" (.text "6'2\"")]) (.raw ""))]).toSql.1 =
          .ok ⟨"UPDATE t SET height = :dy0", .ofList [(generated 0, .value (.text "6'2"))]⟩ := by
  refine ⟨.bare fun q u hq h => ?_, by decide +kernel⟩
  have hhead : '6' = q := by simpa using congrArg (·.toList.head?) h
  subst hhead
  cases hq

end Builder

end SqlStatement
