import SqlStatement.Proofs.Builder.Assignments
import SqlStatement.Proofs.Text

/-!
# Statements without a table

A draft is asked for its table before anything else, and what is compiled after that fails only over
what the draft says about rows and values. So a missing table is the error exactly if there is none,
whatever else is wrong with the draft.

* `Error.aboutContent`, `Compiled.FailsOverContent` : errors over what a draft says;
* `Builder.toSql_missingTable_iff` : builders that have been given a table.
-/

namespace SqlStatement

/-! ## Errors over what a draft says -/

/-- Whether the error is about the conditions or the values of a draft. -/
def Error.aboutContent : Error → Bool
  | invalidCondition _ _ _ | emptyValues _ | invalidExpression _ _ _ | booleanUpdate _
  | unsupportedPlaceholder _ => true
  | _ => false

namespace Compiled

def FailsOverContent (c : Compiled) : Prop := ∀ f, c = .error f → f.error.aboutContent = true

variable {c d : Compiled} {t : Template}

theorem failsOverContent_ok (t : Template) : FailsOverContent (.ok t) := fun _ h => nomatch h

theorem failsOverContent_error {f : Failure} (h : f.error.aboutContent = true) :
    FailsOverContent (.error f) := by
  intro g hg
  cases hg
  exact h

theorem FailsOverContent.after (hc : c.FailsOverContent) (t : Template) :
    (after t c).FailsOverContent := by
  rcases c with f | u
  · exact failsOverContent_error (hc f rfl)
  · exact failsOverContent_ok _

theorem FailsOverContent.append (hc : c.FailsOverContent) (hd : d.FailsOverContent) :
    (c ++ d).FailsOverContent := by
  rcases c with f | t
  · exact failsOverContent_error (hc f rfl)
  · exact hd.after t

theorem FailsOverContent.lead (hc : c.FailsOverContent) (s : String) :
    (lead s c).FailsOverContent := by
  rcases c with f | t
  · exact hc
  · exact failsOverContent_ok _

theorem FailsOverContent.map (hc : c.FailsOverContent) (f : Template → Template) :
    FailsOverContent (c.map f) := by
  rcases c with e | t
  · exact hc
  · exact failsOverContent_ok _

theorem failsOverContent_joinWith (sep : String) : ∀ {cs : List Compiled},
    (∀ c ∈ cs, c.FailsOverContent) → (joinWith sep cs).FailsOverContent
  | [], _ => failsOverContent_ok []
  | [c], h => h c (List.mem_singleton_self c)
  | c :: d :: cs, h => by
    have hrest := failsOverContent_joinWith sep fun e he => h e (List.mem_cons_of_mem c he)
    exact (h c List.mem_cons_self).append (hrest.after _)

end Compiled

open Compiled

/-! ## Conditions -/

theorem failsOverContent_comparison (field : String) (op : Operator) (operand : Operand) :
    (compileComparison field op operand).FailsOverContent := by
  have hmembership : (compileMembership field op operand).FailsOverContent := by
    unfold compileMembership
    split
    next => exact failsOverContent_error rfl
    next => exact failsOverContent_ok _
    next => exact failsOverContent_ok _
  have hscalar : (compileScalar field op operand).FailsOverContent := by
    unfold compileScalar
    split
    next => exact failsOverContent_ok _
    next => exact failsOverContent_error rfl
  cases op with
  | oneOf => exact hmembership
  | noneOf => exact hmembership
  | between =>
    show (compileRange field operand).FailsOverContent
    unfold compileRange
    split
    next => exact failsOverContent_ok _
    next => exact failsOverContent_ok _
    next => exact failsOverContent_error rfl
    next => exact failsOverContent_error rfl
  | equal => exact hscalar
  | other token => exact hscalar

theorem failsOverContent_term (t : Term) : t.compile.FailsOverContent := by
  cases t with
  | field key operand =>
    exact (failsOverContent_comparison _ _ operand).append (failsOverContent_ok _)
  | raw sql => exact failsOverContent_ok _
  | openGroup => exact failsOverContent_ok _
  | closeGroup => exact failsOverContent_ok _

theorem failsOverContent_terms (follows : Bool) (ts : List Term) :
    (compileTerms follows ts).FailsOverContent := by
  induction ts generalizing follows with
  | nil => exact failsOverContent_ok []
  | cons t ts ih => exact ((failsOverContent_term t).append (ih t.joinable)).after _

theorem failsOverContent_condition (c : Condition) : c.compile.FailsOverContent := by
  cases c with
  | raw sql => exact failsOverContent_ok _
  | structured cs => exact failsOverContent_terms false cs.terms

theorem failsOverContent_optional (c : Option Condition) :
    (compileOptional c).FailsOverContent := by
  unfold compileOptional
  split
  next => exact failsOverContent_ok []
  next c =>
    split
    next => exact failsOverContent_ok []
    next => exact failsOverContent_condition c

/-! ## The parts of a draft -/

theorem Criteria.failsOverContent_compile (c : Criteria) : c.compile.FailsOverContent := by
  have hrows := (failsOverContent_optional c.filter).lead " WHERE "
  have hclauses := ((failsOverContent_optional c.having).lead "HAVING ").map c.clauses
  exact hrows.append ((hclauses.after [.params c.havingParams]).lead " ")

theorem failsOverContent_joins (js : List Join) : (compileJoins js).FailsOverContent := by
  induction js with
  | nil => exact failsOverContent_ok []
  | cons j js ih => exact ((failsOverContent_condition j.condition).after _).append ih

theorem failsOverContent_updateAssignment (index : Nat) (a : Assignment) :
    (updateAssignment index a).FailsOverContent := by
  unfold updateAssignment
  split
  next => exact failsOverContent_ok _
  next => exact failsOverContent_error rfl
  next => exact failsOverContent_ok _
  next => exact failsOverContent_ok _
  next => exact failsOverContent_error rfl

theorem failsOverContent_assignments (as : List Assignment) :
    (compileAssignments as).FailsOverContent := by
  refine failsOverContent_joinWith "," fun c hc => ?_
  obtain ⟨⟨a, index⟩, -, rfl⟩ := List.mem_map.1 hc
  exact failsOverContent_updateAssignment index a

theorem aboutContent_of_insertAssignment {index : Nat} {a : Assignment} {e : Error}
    (h : insertAssignment index a = .error e) : e.aboutContent = true := by
  have hcontent : ∀ {content : String} {e : Error}, insertContent content = .error e →
      e.aboutContent = true := by
    intro content e he
    unfold insertContent at he
    split_ifs at he
    · split at he
      next => cases he
      next =>
        cases he
        rfl
    · split at he
      next => cases he
      next => cases he
  have hexpression : ∀ {expr : String} {e : Error}, insertExpression expr = .error e →
      e.aboutContent = true := by
    intro expr e he
    unfold insertExpression at he
    split at he
    next => cases he
    next column content _ =>
      split_ifs at he
      rcases hpiece : insertContent (Text.trim content) with e' | piece
      · rw [hpiece] at he
        cases he
        exact hcontent hpiece
      · rw [hpiece] at he
        cases he
  unfold insertAssignment at h
  split at h
  next => cases h
  next => exact hexpression h
  next =>
    cases h
    rfl

theorem aboutContent_of_insertContributions {index : Nat} {as : List Assignment} {f : Failure}
    (h : insertContributions index as = .error f) : f.error.aboutContent = true := by
  induction as generalizing index f with
  | nil => cases h
  | cons a as ih =>
    unfold insertContributions at h
    rcases ha : insertAssignment index a with e | c
    · rw [ha] at h
      cases h
      exact aboutContent_of_insertAssignment ha
    · rcases has : insertContributions (index + 1) as with g | cs
      · rw [ha, has] at h
        cases h
        exact ih (f := g) has
      · rw [ha, has] at h
        cases h

/-! ## Drafts -/

namespace Draft

variable {d : Draft} {table : String}

theorem failsOverContent_compileInsert (d : Draft) (table : String) :
    (d.compileInsert table).FailsOverContent := by
  unfold compileInsert
  by_cases hvalues : d.values.isEmpty = true
  · rw [if_pos hvalues]
    exact failsOverContent_error rfl
  · rw [if_neg hvalues]
    rcases hcs : insertContributions 0 d.values.entries with f | cs
    · exact failsOverContent_error (aboutContent_of_insertContributions hcs)
    · exact failsOverContent_ok _

theorem failsOverContent_compileUpdate (d : Draft) (table : String) :
    (d.compileUpdate table).FailsOverContent := by
  unfold compileUpdate
  split_ifs
  · exact failsOverContent_error rfl
  · have hjoins := (failsOverContent_ok [.text ("UPDATE " ++ table)]).append
      (failsOverContent_joins d.joins)
    have hset := (hjoins.append (failsOverContent_ok [.text " SET "])).append
      (failsOverContent_assignments d.values.entries)
    exact hset.append d.criteria.failsOverContent_compile

theorem failsOverContent_compile (htable : d.table? = some table) :
    d.compile.FailsOverContent := by
  unfold compile
  rw [htable]
  dsimp only
  split
  next =>
    exact ((failsOverContent_ok _).append (failsOverContent_joins d.joins)).append
      d.criteria.failsOverContent_compile
  next => exact d.failsOverContent_compileInsert table
  next => exact d.failsOverContent_compileUpdate table
  next => exact (failsOverContent_ok _).append d.criteria.failsOverContent_compile

theorem compile_of_table?_none (htable : d.table? = none) : d.compile = .fail .missingTable := by
  unfold compile
  rw [htable]

/-- The table is missing whatever else the draft says. -/
theorem compile_missingTable_iff :
    (∃ f, d.compile = .error f ∧ f.error = .missingTable) ↔ d.table? = none := by
  constructor
  · rintro ⟨f, hf, hmissing⟩
    rcases htable : d.table? with _ | table
    · rfl
    · have hcontent := failsOverContent_compile htable f hf
      rw [hmissing] at hcontent
      cases hcontent
  · intro htable
    exact ⟨⟨[], .missingTable⟩, compile_of_table?_none htable, rfl⟩

theorem table?_eq_none_iff {t : String} (htable : d.table = some t) : d.table? = none ↔ t = "" := by
  unfold table?
  simp [htable, Option.filter_eq_none_iff]

end Draft

/-! ## Tables that leave no text -/

namespace TableName

variable {name label : String}

theorem text_plain_eq_empty_iff : (plain name).text = "" ↔ Text.isBlankText name = true :=
  Text.trim_eq_empty_iff

theorem text_aliased : (aliased name label).text =
    if Text.trim label = "" ∨ Text.hasChar ' ' (Text.trim name) then Text.trim name
    else Text.trim name ++ " " ++ Text.trim label := rfl

theorem text_aliased_of_blank (hname : Text.isBlankText name = true)
    (hlabel : Text.isBlankText label = false) :
    (aliased name label).text = " " ++ Text.trim label := by
  have hempty := Text.trim_eq_empty_iff.2 hname
  have hne : Text.trim label ≠ "" := by
    rw [ne_eq, Text.trim_eq_empty_iff, hlabel]
    exact Bool.false_ne_true
  rw [text_aliased, hempty, if_neg (by simp [hne, Text.hasChar])]
  rfl

theorem text_aliased_eq_empty_iff : (aliased name label).text = "" ↔
    Text.isBlankText name = true ∧ Text.isBlankText label = true := by
  rw [text_aliased]
  split_ifs with hplain
  · rw [Text.trim_eq_empty_iff]
    refine ⟨fun hname => ⟨hname, ?_⟩, And.left⟩
    obtain hlabel | hspace := hplain
    · exact Text.trim_eq_empty_iff.1 hlabel
    · rw [Text.trim_eq_empty_iff.2 hname] at hspace
      cases hspace
  · rw [not_or, Text.trim_eq_empty_iff] at hplain
    simp [hplain.1]

end TableName

/-! ## Builders -/

namespace Builder

theorem Rendering.result_missingTable_iff {r : Rendering} :
    r.result = .error .missingTable ↔ r.draft.table? = none := by
  rw [← Draft.compile_missingTable_iff]
  unfold result renderDraft
  rcases r.draft.compile with f | t
  · simp [Compiled.run, Except.map]
  · simp [Compiled.run, Except.map]

/-- Whatever has been done with a builder, and whatever its draft says:

* it fails for want of a table exactly if it has none or an empty one, before any other error;
* a table given by its name alone is missing exactly if the name is blank;
* a table given with an alias is missing exactly if both are blank. A blank name with an alias
  passes for a table, and a blank and the alias stand for it. -/
theorem toSql_missingTable_iff (d : Draft) (n : Nat) (steps : List Step) :
    let b := run ⟨d, n, none⟩ steps
    let missing := b.toSql.1 = .error .missingTable
    (missing ↔ b.draft.table? = none) ∧
      (∀ name, b.draft.table = some (TableName.plain name).text →
        (missing ↔ Text.isBlankText name = true)) ∧
      ∀ name label, b.draft.table = some (TableName.aliased name label).text →
        (missing ↔ Text.isBlankText name = true ∧ Text.isBlankText label = true) ∧
          (Text.isBlankText name = true → Text.isBlankText label = false →
            b.draft.table? = some (" " ++ Text.trim label)) := by
  obtain ⟨r, hdraft, hresult⟩ := toSql_run d n steps
  intro b missing
  have hmissing : missing ↔ b.draft.table? = none := by
    show b.toSql.1 = .error .missingTable ↔ _
    rw [hresult, Rendering.result_missingTable_iff, hdraft]
  refine ⟨hmissing, fun name htable => ?_, fun name label htable => ⟨?_, fun hname hlabel => ?_⟩⟩
  · rw [hmissing, Draft.table?_eq_none_iff htable, TableName.text_plain_eq_empty_iff]
  · rw [hmissing, Draft.table?_eq_none_iff htable, TableName.text_aliased_eq_empty_iff]
  · have hne : " " ++ Text.trim label ≠ "" := by simp
    unfold Draft.table?
    rw [htable, TableName.text_aliased_of_blank hname hlabel]
    simp [Option.filter, hne]

/-- A deletion that was rendered without a table first, and was then given a blank name with an
alias. -/
theorem toSql_missingTable_iff_deletion :
    let b := run ⟨{ command := .delete }, 0, none⟩
      [.render, .set (.table (.aliased " " "s"))]
    b.draft.table = some (TableName.aliased " " "s").text ∧ b.draft.table? = some " s" ∧
      b.toSql.1 ≠ .error .missingTable := by
  intro b
  have htable : b.draft.table = some (TableName.aliased " " "s").text := rfl
  obtain ⟨-, -, haliased⟩ := toSql_missingTable_iff { command := .delete } 0
    [.render, .set (.table (.aliased " " "s"))]
  obtain ⟨hmissing, hunnamed⟩ := haliased " " "s" htable
  refine ⟨htable, hunnamed (by decide) (by decide), fun h => ?_⟩
  exact absurd (hmissing.1 h).2 (by decide)

/-- A selection from an alias of no table. -/
theorem toSql_nameless :
    Text.isBlankText "" = true ∧
      (run ⟨{}, 0, none⟩ [.set (.table (.aliased "" "u"))]).toSql.1 =
        .ok ⟨"SELECT * FROM  u", {}⟩ := by
  decide +kernel

end Builder

end SqlStatement
