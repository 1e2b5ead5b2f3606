import SqlStatement.Builder.Basic
import SqlStatement.Proofs.Masked.Template

/-!
# Statements without their values

A draft is masked by putting one fixed value in place of every value in its structured conditions,
its assignments to columns and its parameters. Only what an update writes out for null, and that it
refuses truth values, is kept.

* `Condition.compile_masked`, `Criteria.compile_masked`, `Draft.compile_masked` : what is compiled
  from masked parts differs in its values only;
* `Builder.toSql_of_masked` : drafts that are equal when masked give the same text and the same keys
  of parameters, or the same error.
-/

namespace SqlStatement

/-! ## Masking the parts -/

/-- The operand with its values masked, and as many of them. -/
def Operand.masked : Operand → Operand
  | scalar _ => scalar .mask
  | list vs => list (vs.map fun _ => .mask)
  | range _ _ => range .mask .mask

def Term.masked : Term → Term
  | field key operand => field key operand.masked
  | raw sql => raw sql
  | openGroup => openGroup
  | closeGroup => closeGroup

theorem Term.key?_masked (t : Term) : HasKey.key? t.masked = HasKey.key? t := by
  cases t with
  | field key operand => rfl
  | raw sql => rfl
  | openGroup => rfl
  | closeGroup => rfl

def Conditions.masked (cs : Conditions) : Conditions where
  terms := cs.terms.map Term.masked
  nodup := by
    rw [Entries.keys_map Term.key?_masked]
    exact cs.nodup

/-- The condition with its operands masked; a text stays. -/
def Condition.masked : Condition → Condition
  | raw sql => raw sql
  | structured cs => structured cs.masked

def Criteria.masked (c : Criteria) : Criteria :=
  { c with
    filter := c.filter.map Condition.masked
    params := c.params.masked
    having := c.having.map Condition.masked
    havingParams := c.havingParams.masked }

def Join.masked (j : Join) : Join := { j with condition := j.condition.masked }

/-- The value for a column with nothing left of it but what the command looks at: an update writes
out null and refuses truth values. -/
def Value.maskedFor (command : Command) (v : Value) : Value :=
  match command, v with
  | .update, .null => .null
  | .update, .bool _ => .bool false
  | _, _ => .mask

/-- The assignment with the value for its column masked. Expressions are no values. -/
def Assignment.masked (command : Command) : Assignment → Assignment
  | column name v => column name (v.maskedFor command)
  | expr v => expr v

theorem Assignment.key?_masked (command : Command) (a : Assignment) :
    HasKey.key? (a.masked command) = HasKey.key? a := by
  cases a with
  | column name v => rfl
  | expr v => rfl

def Values.masked (command : Command) (vs : Values) : Values where
  entries := vs.entries.map (Assignment.masked command)
  nodup := by
    rw [Entries.keys_map (Assignment.key?_masked command)]
    exact vs.nodup

/-- The draft with all its values masked. -/
def Draft.masked (d : Draft) : Draft :=
  { d with
    criteria := d.criteria.masked
    joins := d.joins.map Join.masked
    values := d.values.masked d.command }

/-! ## Conditions -/

open Compiled

theorem valueList_masked (vs : List Value) :
    (valueList (vs.map fun _ => .mask)).masked = (valueList vs).masked := by
  unfold valueList
  rw [Template.masked_joinWith, Template.masked_joinWith, List.map_map, List.map_map, List.map_map]
  rfl

theorem compileMembership_masked (field : String) (op : Operator) (operand : Operand) :
    masked (compileMembership field op operand.masked) =
      masked (compileMembership field op operand) := by
  cases operand with
  | scalar v => rfl
  | range low high => rfl
  | list vs =>
    cases vs with
    | nil => rfl
    | cons v vs =>
      have h := valueList_masked (v :: vs)
      show Except.ok (Template.masked (_ :: valueList ((v :: vs).map fun _ => .mask) ++ [_])) =
        Except.ok (Template.masked (_ :: valueList (v :: vs) ++ [_]))
      rw [Template.masked_append, Template.masked_append]
      rw [Template.masked_cons, Template.masked_cons, h]
      rfl

theorem compileRange_masked (field : String) (operand : Operand) :
    masked (compileRange field operand.masked) = masked (compileRange field operand) := by
  cases operand with
  | scalar v => rfl
  | range low high => rfl
  | list vs =>
    match vs with
    | [] => rfl
    | [_] => rfl
    | [_, _] => rfl
    | u :: v :: w :: vs =>
      have hlength : (vs.map fun _ => Value.mask).length = vs.length := List.length_map _
      show masked (.fail (.invalidCondition _ field
        (.two ((vs.map fun _ => Value.mask).length + 1 + 1 + 1)))) = _
      rw [hlength]
      rfl

theorem compileScalar_masked (field : String) (op : Operator) (operand : Operand) :
    masked (compileScalar field op operand.masked) = masked (compileScalar field op operand) := by
  cases operand with
  | scalar v => rfl
  | list vs => rfl
  | range low high => rfl

theorem compileComparison_masked (field : String) (op : Operator) (operand : Operand) :
    masked (compileComparison field op operand.masked) =
      masked (compileComparison field op operand) := by
  cases op with
  | oneOf => exact compileMembership_masked field .oneOf operand
  | noneOf => exact compileMembership_masked field .noneOf operand
  | between => exact compileRange_masked field operand
  | equal => exact compileScalar_masked field .equal operand
  | other token => exact compileScalar_masked field (.other token) operand

theorem compileField_masked (key : String) (operand : Operand) :
    masked (compileField key operand.masked) = masked (compileField key operand) := by
  unfold compileField
  rw [masked_append, masked_append, compileComparison_masked]

namespace Term

theorem compile_masked (t : Term) : Compiled.masked t.masked.compile = t.compile.masked := by
  cases t with
  | field key operand => exact compileField_masked key operand
  | raw sql => rfl
  | openGroup => rfl
  | closeGroup => rfl

theorem connective_masked (follows : Bool) (t : Term) :
    t.masked.connective follows = t.connective follows := by
  cases t with
  | field key operand => rfl
  | raw sql => rfl
  | openGroup => rfl
  | closeGroup => rfl

theorem joinable_masked (t : Term) : t.masked.joinable = t.joinable := by
  cases t with
  | field key operand => rfl
  | raw sql => rfl
  | openGroup => rfl
  | closeGroup => rfl

end Term

theorem compileTerms_masked (follows : Bool) (ts : List Term) :
    masked (compileTerms follows (ts.map Term.masked)) = masked (compileTerms follows ts) := by
  induction ts generalizing follows with
  | nil => rfl
  | cons t ts ih =>
    rw [List.map_cons]
    unfold compileTerms
    rw [masked_after, masked_append, Term.compile_masked, Term.connective_masked,
      Term.joinable_masked, ih, ← masked_append, ← masked_after]

namespace Condition

theorem compile_masked (c : Condition) : Compiled.masked c.masked.compile = c.compile.masked := by
  cases c with
  | raw sql => rfl
  | structured cs => exact compileTerms_masked false cs.terms

theorem isEmpty_masked (c : Condition) : c.masked.isEmpty = c.isEmpty := by
  cases c with
  | raw sql => rfl
  | structured cs => exact List.isEmpty_map

end Condition

theorem compileOptional_masked (c : Option Condition) :
    masked (compileOptional (c.map Condition.masked)) = masked (compileOptional c) := by
  cases c with
  | none => rfl
  | some c =>
    unfold compileOptional
    rw [Option.map_some]
    simp only [Condition.isEmpty_masked]
    split
    next => rfl
    next => exact c.compile_masked

/-! ## Criteria -/

theorem clauseTemplate_masked (clause : Option String) :
    (clauseTemplate clause).masked = clauseTemplate clause := by
  cases clause with
  | none => rfl
  | some s => rfl

namespace Criteria

theorem boundParams_masked (c : Criteria) : c.masked.boundParams = c.boundParams.masked :=
  (Params.merge_masked c.params c.havingParams).symm

theorem clauses_masked (c : Criteria) (having : Template) :
    (c.clauses having).masked = c.masked.clauses having.masked := by
  unfold clauses
  rw [Template.masked_joinWith_filter, List.map_cons, List.map_cons, List.map_cons, List.map_cons,
    clauseTemplate_masked, clauseTemplate_masked, clauseTemplate_masked]
  rfl

theorem compileClauses_masked (c : Criteria) :
    Compiled.masked c.masked.compileClauses = c.compileClauses.masked := by
  have hhaving : Compiled.masked (compileOptional c.masked.having) =
      (compileOptional c.having).masked := compileOptional_masked c.having
  unfold compileClauses
  rw [Compiled.masked_map c.masked.clauses_masked, Compiled.masked_map c.clauses_masked,
    masked_lead, masked_lead, hhaving]
  rfl

theorem compile_masked (c : Criteria) : Compiled.masked c.masked.compile = c.compile.masked := by
  have hwhere : Compiled.masked c.masked.compileWhere = c.compileWhere.masked :=
    compileOptional_masked c.filter
  have hoptions : Compiled.masked c.masked.compileOptions = c.compileOptions.masked := by
    unfold compileOptions
    rw [masked_after, masked_after, compileClauses_masked]
    show Compiled.after [.params c.havingParams.masked.masked] _ = _
    rw [Params.masked_masked]
    rfl
  unfold compile
  rw [masked_append, masked_append, masked_lead, masked_lead, masked_lead, masked_lead, hwhere,
    hoptions]

end Criteria

/-! ## Joins and assignments -/

theorem compileJoins_masked (js : List Join) :
    masked (compileJoins (js.map Join.masked)) = masked (compileJoins js) := by
  induction js with
  | nil => rfl
  | cons j js ih =>
    have hj : masked j.masked.compile = masked j.compile := by
      show masked (Compiled.after _ j.condition.masked.compile) = _
      rw [masked_after, Condition.compile_masked, ← masked_after]
      rfl
    show masked (j.masked.compile ++ compileJoins (js.map Join.masked)) = _
    rw [masked_append, hj, ih, ← masked_append]
    rfl

theorem updateAssignment_masked (index : Nat) (a : Assignment) :
    masked (updateAssignment index (a.masked .update)) = masked (updateAssignment index a) := by
  cases a with
  | expr v => rfl
  | column name v =>
    cases v with
    | null => rfl
    | bool b => rfl
    | int n => rfl
    | float x => rfl
    | text s => rfl

theorem compileAssignments_masked (as : List Assignment) :
    masked (compileAssignments (as.map (Assignment.masked .update))) =
      masked (compileAssignments as) := by
  unfold compileAssignments
  rw [masked_joinWith, masked_joinWith, List.zipIdx_map, List.map_map, List.map_map, List.map_map]
  refine congrArg (joinWith ",") (List.map_congr_left fun e _ => ?_)
  exact updateAssignment_masked e.2 e.1

/-! ## Insertions -/

def Contribution.masked (c : Contribution) : Contribution := { c with content := c.content.masked }

/-- The contributions, or what has been written before an error, with their values masked. -/
def maskContributions :
    Except Failure (List Contribution) → Except Failure (List Contribution)
  | .error f => .error ⟨f.written.masked, f.error⟩
  | .ok cs => .ok (cs.map Contribution.masked)

theorem maskContributions_prepend (c : Option Contribution)
    (r : Except Failure (List Contribution)) :
    maskContributions (Contribution.prepend c r) =
      Contribution.prepend (c.map Contribution.masked) (maskContributions r) := by
  cases c with
  | none =>
    cases r with
    | ok cs => rfl
    | error f => rfl
  | some c =>
    cases r with
    | ok cs => rfl
    | error f => rfl

theorem insertContributions_masked (index : Nat) (as : List Assignment) :
    maskContributions (insertContributions index (as.map (Assignment.masked .insert))) =
      maskContributions (insertContributions index as) := by
  induction as generalizing index with
  | nil => rfl
  | cons a as ih =>
    rw [List.map_cons]
    unfold insertContributions
    cases a with
    | column name v =>
      show maskContributions (Contribution.prepend (some ⟨name, .value .mask⟩) _) =
        maskContributions (Contribution.prepend (some ⟨name, .value v⟩) _)
      rw [maskContributions_prepend, maskContributions_prepend, ih]
      rfl
    | expr v =>
      have hv : Assignment.masked .insert (.expr v) = .expr v := rfl
      rw [hv]
      cases insertAssignment index (.expr v) with
      | error e => rfl
      | ok c =>
        show maskContributions (Contribution.prepend c _) =
          maskContributions (Contribution.prepend c _)
        rw [maskContributions_prepend, maskContributions_prepend, ih]

theorem insertLists_masked (cs : List Contribution) :
    (insertLists cs).masked = insertLists (cs.map Contribution.masked) := by
  unfold insertLists
  rw [Template.masked_append, Template.masked_cons, Template.masked_joinWith, List.map_map,
    List.map_map, List.map_map]
  rfl

theorem insertion_masked (head : String) (r : Except Failure (List Contribution)) :
    masked (r.map fun cs => .text head :: insertLists cs) =
      (maskContributions r).map fun cs => .text head :: insertLists cs := by
  cases r with
  | error f => rfl
  | ok cs =>
    show Except.ok (Template.masked (.text head :: insertLists cs)) = _
    rw [Template.masked_cons, insertLists_masked]
    rfl

/-! ## Drafts -/

namespace Draft

theorem isEmpty_masked (d : Draft) : d.masked.values.isEmpty = d.values.isEmpty :=
  List.isEmpty_map

theorem compileSelect_masked (d : Draft) (table : String) :
    Compiled.masked (d.masked.compileSelect table) = Compiled.masked (d.compileSelect table) := by
  show Compiled.masked (_ ++ compileJoins (d.joins.map Join.masked) ++ d.criteria.masked.compile) =
    Compiled.masked (_ ++ compileJoins d.joins ++ d.criteria.compile)
  rw [masked_append, masked_append, masked_append, masked_append, compileJoins_masked,
    Criteria.compile_masked]
  rfl

theorem compileInsert_masked {d : Draft} (h : d.command = .insert) (table : String) :
    Compiled.masked (d.masked.compileInsert table) = Compiled.masked (d.compileInsert table) := by
  have hentries : d.masked.values.entries = d.values.entries.map (Assignment.masked .insert) := by
    rw [← h]
    rfl
  unfold compileInsert
  rw [isEmpty_masked]
  split
  next => rfl
  next =>
    rw [insertion_masked, insertion_masked, hentries, insertContributions_masked]
    rfl

theorem compileUpdate_masked {d : Draft} (h : d.command = .update) (table : String) :
    Compiled.masked (d.masked.compileUpdate table) = Compiled.masked (d.compileUpdate table) := by
  have hentries : d.masked.values.entries = d.values.entries.map (Assignment.masked .update) := by
    rw [← h]
    rfl
  unfold compileUpdate
  rw [isEmpty_masked]
  split
  next => rfl
  next =>
    show Compiled.masked (_ ++ compileJoins (d.joins.map Join.masked) ++ _ ++
      compileAssignments d.masked.values.entries ++ d.criteria.masked.compile) = _
    rw [hentries]
    simp only [masked_append, compileJoins_masked, compileAssignments_masked,
      Criteria.compile_masked]

theorem compileDelete_masked (d : Draft) (table : String) :
    Compiled.masked (d.masked.compileDelete table) = Compiled.masked (d.compileDelete table) := by
  show Compiled.masked (_ ++ d.criteria.masked.compile) = Compiled.masked (_ ++ d.criteria.compile)
  rw [masked_append, masked_append, Criteria.compile_masked]

/-- What is compiled from a masked draft differs in its values only. -/
theorem compile_masked (d : Draft) : Compiled.masked d.masked.compile = d.compile.masked := by
  have htable : d.masked.table? = d.table? := rfl
  have hcommand : d.masked.command = d.command := rfl
  unfold compile
  rw [htable, hcommand]
  cases d.table? with
  | none => rfl
  | some table =>
    cases h : d.command with
    | select => exact d.compileSelect_masked table
    | insert => exact compileInsert_masked h table
    | update => exact compileUpdate_masked h table
    | delete => exact d.compileDelete_masked table

end Draft

/-! ## Statements -/

/-- What can be read off a statement without looking at the values. -/
def Statement.visible (s : Statement) : String × List ParamKey := (s.sql, s.params.keys)

namespace Builder

open Statement

theorem renderDraft_of_masked {d e : Draft} (h : d.masked = e.masked) (n : Nat) :
    (renderDraft d n).1.map visible = (renderDraft e n).1.map visible ∧
      (renderDraft d n).2 = (renderDraft e n).2 := by
  have hcompile : d.compile.masked = e.compile.masked := by
    rw [← Draft.compile_masked, h, Draft.compile_masked]
  have hparams : d.criteria.boundParams.masked = e.criteria.boundParams.masked := by
    have hcriteria : d.criteria.masked = e.criteria.masked := congrArg Draft.criteria h
    rw [← Criteria.boundParams_masked, hcriteria, Criteria.boundParams_masked]
  have hstart : Placement.masked ⟨n, d.criteria.boundParams⟩ =
      Placement.masked ⟨n, e.criteria.boundParams⟩ :=
    congrArg (Placement.mk n) hparams
  obtain ⟨htext, hplacement⟩ := Compiled.run_congr hcompile hstart
  have hnext := congrArg Placement.next hplacement
  have hkeys := congrArg (fun p : Placement => p.params.keys) hplacement
  refine ⟨?_, hnext⟩
  unfold Placement.masked at hkeys
  simp only [Params.keys_masked] at hkeys
  show ((d.compile.run ⟨n, d.criteria.boundParams⟩).1.map _).map visible =
    ((e.compile.run ⟨n, e.criteria.boundParams⟩).1.map _).map visible
  rw [htext]
  cases (e.compile.run ⟨n, e.criteria.boundParams⟩).1 with
  | error error => rfl
  | ok sql => exact congrArg (fun keys => Except.ok (sql, keys)) hkeys

/-- Values stay out of statements: builders that are equal when their values are masked, and that
have not rendered yet, give the same text and the same keys of parameters, or the same error. The
numbers for the next placeholder stay equal too. -/
theorem toSql_of_masked {b c : Builder} (hb : b.rendered = none) (hc : c.rendered = none)
    (hnext : b.next = c.next) (h : b.draft.masked = c.draft.masked) :
    b.toSql.1.map visible = c.toSql.1.map visible ∧ b.toSql.2.next = c.toSql.2.next := by
  obtain ⟨hvisible, hafter⟩ := renderDraft_of_masked h c.next
  rw [toSql_of_none hb, toSql_of_none hc, render_eq, render_eq, hnext]
  exact ⟨hvisible, hafter⟩

/-- An update with a value for a column, one to compare with, and a parameter. -/
def updateWith (v w : Value) (binding : Binding) : Builder where
  draft :=
    { command := .update
      table := some "t"
      values := .ofList [.column "a" v]
      criteria :=
        { filter := some (.structured (.ofList [.raw "c = :c", .field "b:IN" (.list [w, .null])]))
          params := .ofList [(.named ":c", binding)] } }

theorem toSql_of_masked_updateWith :
    (updateWith (.text "'; DROP TABLE t; --") (.text "0) OR (1=1") (.slot 0)).toSql.1.map visible =
        .ok ("UPDATE t SET a = :dy0 WHERE c = :c AND `b` IN (:dy1,:dy2)",
          [.named ":c", .named ":dy0", .named ":dy1", .named ":dy2"]) ∧
      (updateWith (.text "'; DROP TABLE t; --") (.text "0) OR (1=1") (.slot 0)).toSql.1.map visible =
        (updateWith (.int 7) (.int 0) (.value .null)).toSql.1.map visible :=
  ⟨by decide +kernel, (toSql_of_masked rfl rfl rfl rfl).1⟩

end Builder

end SqlStatement
