import SqlStatement.Builder.Compile
import SqlStatement.Proofs.Template

/-!
# Bindings that join while compiling

Most of what is compiled consists of texts and values. Bindings of the caller join at one place
only, before the condition on groups, and they are the ones given for it.

* `joins_criteria`, `joins_draft` : those for the condition on groups join in criteria and drafts.
-/

namespace SqlStatement

/-- All bindings that join while the template is filled satisfy `P`. -/
def Template.Joins (P : Params → Prop) (t : Template) : Prop := ∀ ps, Piece.params ps ∈ t → P ps

/-- All bindings that join in what has been written satisfy `P`. -/
def Compiled.Joins (P : Params → Prop) (c : Compiled) : Prop := c.written.Joins P

variable {P : Params → Prop}

/-! ## Templates -/

namespace Template

theorem joins_nil : Joins P [] := fun _ h => absurd h List.not_mem_nil

theorem Joins.append {t u : Template} (ht : t.Joins P) (hu : u.Joins P) : (t ++ u).Joins P := by
  intro ps h
  obtain h | h := List.mem_append.1 h
  · exact ht ps h
  · exact hu ps h

theorem joins_text_cons {s : String} {t : Template} (h : t.Joins P) : Joins P (.text s :: t) := by
  intro ps hps
  obtain hps | hps := List.mem_cons.1 hps
  · cases hps
  · exact h ps hps

theorem joins_value_cons {v : Value} {t : Template} (h : t.Joins P) :
    Joins P (.value v :: t) := by
  intro ps hps
  obtain hps | hps := List.mem_cons.1 hps
  · cases hps
  · exact h ps hps

theorem joins_params_cons {qs : Params} {t : Template} (hq : P qs) (h : t.Joins P) :
    Joins P (.params qs :: t) := by
  intro ps hps
  obtain hps | hps := List.mem_cons.1 hps
  · cases hps
    exact hq
  · exact h ps hps

theorem joins_joinWith (sep : String) {ts : List Template} (h : ∀ t ∈ ts, t.Joins P) :
    (joinWith sep ts).Joins P := by
  induction ts with
  | nil => exact joins_nil
  | cons t ts ih =>
    have ht := h t List.mem_cons_self
    have hts := ih fun u hu => h u (List.mem_cons_of_mem t hu)
    cases ts with
    | nil => exact ht
    | cons u us => exact ht.append (joins_text_cons hts)

end Template

/-! ## Combining -/

namespace Compiled

open Template

theorem joins_text (s : String) : (text s).Joins P := joins_text_cons joins_nil

theorem joins_fail (e : Error) : (fail e).Joins P := joins_nil

theorem Joins.after {t : Template} {c : Compiled} (ht : t.Joins P) (hc : c.Joins P) :
    (after t c).Joins P := by
  unfold Joins
  rw [written_after]
  exact Template.Joins.append ht hc

theorem Joins.append {c d : Compiled} (hc : c.Joins P) (hd : d.Joins P) : (c ++ d).Joins P := by
  cases c with
  | ok t => exact Joins.after hc hd
  | error f => exact hc

theorem Joins.lead {c : Compiled} (s : String) (hc : c.Joins P) : (lead s c).Joins P := by
  cases c with
  | ok t =>
    show Template.Joins P (if t.hasText then .text s :: t else t)
    split
    next => exact joins_text_cons hc
    next => exact hc
  | error f => exact hc

theorem joins_map {c : Compiled} {f : Template → Template} (hc : c.Joins P)
    (hf : ∀ t, t.Joins P → (f t).Joins P) : Joins P (c.map f) := by
  cases c with
  | ok t => exact hf t hc
  | error e => exact hc

theorem joins_joinWith (sep : String) {cs : List Compiled} (h : ∀ c ∈ cs, c.Joins P) :
    (joinWith sep cs).Joins P := by
  induction cs with
  | nil => exact Template.joins_nil
  | cons c cs ih =>
    have hc := h c List.mem_cons_self
    have hcs := ih fun d hd => h d (List.mem_cons_of_mem c hd)
    cases cs with
    | nil => exact hc
    | cons d ds => exact hc.append (Joins.after (joins_text_cons joins_nil) hcs)

end Compiled

open Template Compiled

/-! ## Conditions -/

theorem joins_valueList (vs : List Value) : (valueList vs).Joins P := by
  refine Template.joins_joinWith "," fun t ht => ?_
  obtain ⟨v, _, rfl⟩ := List.mem_map.1 ht
  exact joins_value_cons joins_nil

theorem joins_membership (field : String) (op : Operator) (operand : Operand) :
    (compileMembership field op operand).Joins P := by
  unfold compileMembership
  split
  next => exact joins_fail _
  next => exact joins_text _
  next vs _ _ =>
    exact Template.Joins.append (joins_text_cons (joins_valueList vs)) (joins_text_cons joins_nil)

theorem joins_rangeTemplate (field : String) (low high : Value) :
    (rangeTemplate field low high).Joins P :=
  joins_text_cons (joins_value_cons (joins_text_cons (joins_value_cons joins_nil)))

theorem joins_range (field : String) (operand : Operand) :
    (compileRange field operand).Joins P := by
  unfold compileRange
  split
  next => exact joins_rangeTemplate _ _ _
  next => exact joins_rangeTemplate _ _ _
  next => exact joins_fail _
  next => exact joins_fail _

theorem joins_scalar (field : String) (op : Operator) (operand : Operand) :
    (compileScalar field op operand).Joins P := by
  unfold compileScalar
  split
  next => exact joins_text_cons (joins_value_cons joins_nil)
  next => exact joins_fail _

theorem joins_comparison (field : String) (op : Operator) (operand : Operand) :
    (compileComparison field op operand).Joins P := by
  cases op with
  | oneOf => exact joins_membership field .oneOf operand
  | noneOf => exact joins_membership field .noneOf operand
  | between => exact joins_range field operand
  | equal => exact joins_scalar field .equal operand
  | other token => exact joins_scalar field (.other token) operand

theorem joins_suffixText (suffix : Option String) : (suffixText suffix).Joins P := by
  cases suffix with
  | none => exact joins_nil
  | some s => exact joins_text_cons joins_nil

theorem joins_field (key : String) (operand : Operand) : (compileField key operand).Joins P :=
  (joins_comparison _ _ operand).append (joins_suffixText _)

theorem joins_term (t : Term) : t.compile.Joins P := by
  cases t with
  | field key operand => exact joins_field key operand
  | raw sql => exact joins_text sql
  | openGroup => exact joins_text "("
  | closeGroup => exact joins_text ")"

theorem joins_terms (follows : Bool) (ts : List Term) : (compileTerms follows ts).Joins P := by
  induction ts generalizing follows with
  | nil => exact joins_nil
  | cons t ts ih =>
    refine Joins.after ?_ ((joins_term t).append (ih t.joinable))
    unfold Term.connective
    split
    next => exact joins_text_cons joins_nil
    next => exact joins_nil

theorem joins_condition (c : Condition) : c.compile.Joins P := by
  cases c with
  | raw sql => exact joins_text sql
  | structured cs => exact joins_terms false cs.terms

theorem joins_optional (c : Option Condition) : (compileOptional c).Joins P := by
  unfold compileOptional
  split
  next => exact joins_nil
  next c =>
    split
    next => exact joins_nil
    next => exact joins_condition c

/-! ## Criteria -/

theorem joins_clauseTemplate (clause : Option String) : (clauseTemplate clause).Joins P := by
  cases clause with
  | none => exact joins_nil
  | some s => exact joins_text_cons joins_nil

namespace Criteria

theorem joins_clauses (c : Criteria) : c.compileClauses.Joins P := by
  refine Compiled.joins_map ((joins_optional c.having).lead "HAVING ") fun having hh => ?_
  refine Template.joins_joinWith " " fun t ht => ?_
  have hm := (List.mem_filter.1 ht).1
  simp only [List.mem_cons, List.not_mem_nil, or_false] at hm
  obtain rfl | rfl | rfl | rfl := hm
  · exact joins_clauseTemplate _
  · exact hh
  · exact joins_clauseTemplate _
  · exact joins_clauseTemplate _

/-- The bindings for the condition on groups are all that join in criteria. -/
theorem joins_criteria {c : Criteria} (h : P c.havingParams) : c.compile.Joins P := by
  have hoptions : c.compileOptions.Joins P :=
    Joins.after (joins_params_cons h joins_nil) c.joins_clauses
  exact ((joins_optional c.filter).lead " WHERE ").append (hoptions.lead " ")

end Criteria

/-! ## Drafts -/

theorem joins_joins (js : List Join) : (compileJoins js).Joins P := by
  induction js with
  | nil => exact joins_nil
  | cons j js ih =>
    exact Joins.append (Joins.after (joins_text_cons joins_nil) (joins_condition j.condition)) ih

theorem joins_updateAssignment (index : Nat) (a : Assignment) :
    (updateAssignment index a).Joins P := by
  unfold updateAssignment
  split
  next => exact joins_text _
  next => exact joins_fail _
  next => exact joins_text_cons (joins_value_cons joins_nil)
  next => exact joins_text _
  next => exact joins_fail _

theorem joins_assignments (as : List Assignment) : (compileAssignments as).Joins P := by
  refine Compiled.joins_joinWith "," fun c hc => ?_
  obtain ⟨⟨a, index⟩, _, rfl⟩ := List.mem_map.1 hc
  exact joins_updateAssignment index a

theorem insertContent_ne_params {content : String} {piece : Piece}
    (h : insertContent content = .ok piece) (ps : Params) : piece ≠ .params ps := by
  rintro rfl
  unfold insertContent at h
  split at h
  next => cases h
  next =>
    split at h
    next => cases h
    next =>
      split at h
      next => cases h
      next => cases h

theorem insertExpression_ne_params {expr : String} {c : Contribution}
    (h : insertExpression expr = .ok (some c)) (ps : Params) : c.content ≠ .params ps := by
  unfold insertExpression at h
  split at h
  next => cases h
  next column content _ =>
    split at h
    next => cases h
    next =>
      cases hp : insertContent (Text.trim content) with
      | error e =>
        rw [hp] at h
        cases h
      | ok piece =>
        rw [hp] at h
        cases h
        exact insertContent_ne_params hp ps

theorem insertAssignment_ne_params {index : Nat} {a : Assignment} {c : Contribution}
    (h : insertAssignment index a = .ok (some c)) (ps : Params) : c.content ≠ .params ps := by
  cases a with
  | column name v =>
    cases h
    exact Piece.noConfusion
  | expr v =>
    cases v with
    | text expr => exact insertExpression_ne_params h ps
    | null => cases h
    | bool b => cases h
    | int n => cases h
    | float x => cases h

theorem joins_contents {cs : List Contribution}
    (h : ∀ c ∈ cs, ∀ ps, c.content ≠ .params ps) : Template.Joins P (cs.map (·.content)) := by
  intro ps hps
  obtain ⟨c, hc, heq⟩ := List.mem_map.1 hps
  exact absurd heq (h c hc ps)

theorem joins_insertContributions (index : Nat) (as : List Assignment) :
    match insertContributions index as with
    | .ok cs => ∀ c ∈ cs, ∀ ps, c.content ≠ .params ps
    | .error f => f.written.Joins P := by
  induction as generalizing index with
  | nil => exact fun c hc => absurd hc List.not_mem_nil
  | cons a as ih =>
    unfold insertContributions
    cases ha : insertAssignment index a with
    | error e => exact joins_nil
    | ok first =>
      have hfirst : ∀ c ∈ first.toList, ∀ ps, c.content ≠ .params ps := by
        intro c hc
        rw [Option.mem_toList] at hc
        exact insertAssignment_ne_params (ha.trans (congrArg Except.ok hc))
      have hrest := ih (index + 1)
      cases has : insertContributions (index + 1) as with
      | error f =>
        rw [has] at hrest
        exact Template.Joins.append (joins_contents hfirst) hrest
      | ok cs =>
        rw [has] at hrest
        intro c hc
        obtain hc | hc := List.mem_append.1 hc
        · exact hfirst c hc
        · exact hrest c hc

theorem joins_insertLists {cs : List Contribution}
    (h : ∀ c ∈ cs, ∀ ps, c.content ≠ .params ps) : (insertLists cs).Joins P := by
  have hcontents : (Template.joinWith "," (cs.map fun c => [c.content])).Joins P := by
    refine Template.joins_joinWith "," fun t ht => ?_
    obtain ⟨c, hc, rfl⟩ := List.mem_map.1 ht
    intro ps hps
    exact absurd (List.mem_singleton.1 hps).symm (h c hc ps)
  exact Template.Joins.append (joins_text_cons hcontents) (joins_text_cons joins_nil)

namespace Draft

theorem joins_compileInsert (d : Draft) (table : String) : (d.compileInsert table).Joins P := by
  unfold compileInsert
  split
  next => exact joins_fail _
  next =>
    have hjoins := joins_insertContributions (P := P) 0 d.values.entries
    cases h : insertContributions 0 d.values.entries with
    | ok cs =>
      rw [h] at hjoins
      exact joins_text_cons (joins_insertLists hjoins)
    | error f =>
      rw [h] at hjoins
      exact hjoins

theorem joins_compileSelect {d : Draft} (h : P d.criteria.havingParams) (table : String) :
    (d.compileSelect table).Joins P :=
  ((joins_text _).append (joins_joins _)).append (Criteria.joins_criteria h)

theorem joins_compileUpdate {d : Draft} (h : P d.criteria.havingParams) (table : String) :
    (d.compileUpdate table).Joins P := by
  unfold compileUpdate
  split
  next => exact joins_fail _
  next =>
    refine Compiled.Joins.append ?_ (Criteria.joins_criteria h)
    exact (((joins_text _).append (joins_joins _)).append (joins_text _)).append
      (joins_assignments _)

/-- The bindings for the condition on groups are all that join in a draft. -/
theorem joins_draft {d : Draft} (h : P d.criteria.havingParams) : d.compile.Joins P := by
  unfold compile
  split
  next => exact joins_fail _
  next table _ =>
    split
    next => exact joins_compileSelect h table
    next => exact joins_compileInsert d table
    next => exact joins_compileUpdate h table
    next => exact (joins_text _).append (Criteria.joins_criteria h)

end Draft

end SqlStatement
