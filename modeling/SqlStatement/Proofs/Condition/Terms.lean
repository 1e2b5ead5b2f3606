import SqlStatement.Condition.Compile
import SqlStatement.Proofs.Template

/-!
# The text of a condition, term by term

A condition compiles if the operand of each comparison has the shape that its operator takes. Its
text is then the texts of its terms with `AND` between neighbours where it belongs, and its values
are placed from left to right. Otherwise the first operand that does not fit gives the error, and
the values before it have been placed.

* `Operator.takes`, `Operator.expected`, `Term.fits` : operands that fit, and what an operator asks
  for otherwise;
* `Placement.placeAll`, `Term.values`, `Term.sql` : the values of a term, and its text with their
  placeholders;
* `Conditions.compile_run` : conditions.
-/

namespace SqlStatement

/-! ## Operands that fit -/

namespace Operator

/-- Whether the operator can compare with the operand: membership with a list or a range, a range
with a range or two values, all else with one value. -/
def takes : Operator → Operand → Bool
  | oneOf, .scalar _ => false
  | oneOf, _ => true
  | noneOf, .scalar _ => false
  | noneOf, _ => true
  | between, .range _ _ => true
  | between, .list vs => vs.length == 2
  | between, .scalar _ => false
  | equal, .scalar _ => true
  | equal, _ => false
  | other _, .scalar _ => true
  | other _, _ => false

/-- The shape that the operator asks for when it is given an operand that does not fit. -/
def expected : Operator → Operand → Shape
  | oneOf, _ => .list
  | noneOf, _ => .list
  | between, .list vs => .two vs.length
  | between, _ => .pair
  | equal, _ => .single
  | other _, _ => .single

end Operator

def ConditionKey.refusal (k : ConditionKey) (operand : Operand) : Error :=
  .invalidCondition k.operator.text k.field (k.operator.expected operand)

def Term.fits : Term → Bool
  | field key operand => (ConditionKey.parse key).operator.takes operand
  | _ => true

/-! ## Texts with placeholders -/

/-- The values placed one after the other: their placeholders, and the placement afterwards. -/
def Placement.placeAll (p : Placement) : List Value → List String × Placement
  | [] => ([], p)
  | v :: vs =>
    let (name, q) := p.place v
    let (names, r) := q.placeAll vs
    (name :: names, r)

def Operand.values : Operand → List Value
  | scalar v => [v]
  | list vs => vs
  | range low high => [low, high]

/-- The comparison of a field with the values of some placeholders. Nothing is in an empty list, and
everything is outside of it. -/
def ConditionKey.comparison (k : ConditionKey) (names : List String) : String :=
  match k.operator, names with
  | .oneOf, [] => "1=0"
  | .noneOf, [] => "1=1"
  | .between, [low, high] => k.field ++ " BETWEEN " ++ low ++ " AND " ++ high
  | .equal, [name] | .other _, [name] => k.field ++ " " ++ k.operator.text ++ " " ++ name
  | op, names => k.field ++ " " ++ op.text ++ " (" ++ ",".intercalate names ++ ")"

def ConditionKey.sql (k : ConditionKey) (names : List String) : String :=
  match k.suffix with
  | none => k.comparison names
  | some suffix => k.comparison names ++ (" " ++ suffix)

namespace Term

def values : Term → List Value
  | field _ operand => operand.values
  | _ => []

def sql (names : List String) : Term → String
  | field key _ => (ConditionKey.parse key).sql names
  | raw s => s
  | openGroup => "("
  | closeGroup => ")"

/-- What stands between two terms side by side. -/
def separator : Term → Term → String
  | openGroup, _ => ""
  | _, closeGroup => ""
  | _, field key _ => if Text.occurs " OR " key then "" else " AND "
  | _, _ => " AND "

end Term

def conditionTexts (p : Placement) : List Term → List String
  | [] => []
  | t :: ts => t.sql (p.placeAll t.values).1 :: conditionTexts (p.placeAll t.values).2 ts

/-- The texts that stand before the terms. -/
def separators : List Term → List String
  | [] => []
  | t :: ts => "" :: List.zipWith Term.separator (t :: ts) ts

/-! ## One term -/

namespace Placement

theorem placeAll_cons (p : Placement) (v : Value) (vs : List Value) :
    p.placeAll (v :: vs) = ((p.place v).1 :: ((p.place v).2.placeAll vs).1,
      ((p.place v).2.placeAll vs).2) := rfl

theorem placeAll_append_snd (p : Placement) (vs ws : List Value) :
    (p.placeAll (vs ++ ws)).2 = ((p.placeAll vs).2.placeAll ws).2 := by
  induction vs generalizing p with
  | nil => rfl
  | cons v vs ih =>
    rw [List.cons_append, placeAll_cons, placeAll_cons]
    exact ih (p.place v).2

end Placement

open Template Compiled

theorem fill_valueList (vs : List Value) (p : Placement) :
    (valueList vs).fill p = (",".intercalate (p.placeAll vs).1, (p.placeAll vs).2) := by
  induction vs generalizing p with
  | nil => rfl
  | cons v vs ih =>
    cases vs with
    | nil =>
      rw [Placement.placeAll_cons]
      exact Prod.ext (String.append_empty) rfl
    | cons w ws =>
      have hrest := ih (p.place v).2
      rw [Placement.placeAll_cons]
      show fill (.value v :: .text "," :: valueList (w :: ws)) p = _
      rw [fill_value, fill_text, hrest, Placement.placeAll_cons, String.intercalate_cons_cons,
        String.append_assoc]
      rfl

theorem run_of_fill {t : Template} {p q : Placement} {s : String} (h : t.fill p = (s, q)) :
    Compiled.run (.ok t) p = (.ok s, q) := by
  show (Except.ok (t.fill p).1, (t.fill p).2) = _
  rw [h]

theorem run_membership (head : String) (vs : List Value) (p : Placement) :
    Compiled.run (.ok (.text head :: valueList vs ++ [.text ")"])) p =
      (.ok (head ++ ",".intercalate (p.placeAll vs).1 ++ ")"), (p.placeAll vs).2) := by
  apply run_of_fill
  refine Prod.ext ?_ ?_
  · rw [fill_append_fst, fill_text, fill_valueList]
    rfl
  · rw [fill_append_snd]
    show (fill (valueList vs) p).2 = _
    rw [fill_valueList]

theorem run_range (field : String) (low high : Value) (p : Placement) :
    Compiled.run (.ok (rangeTemplate field low high)) p =
      (.ok (field ++ " BETWEEN " ++ (p.place low).1 ++ " AND " ++ ((p.place low).2.place high).1),
        (p.placeAll [low, high]).2) := by
  apply run_of_fill
  simp [rangeTemplate, fill, Placement.placeAll, String.append_assoc]

theorem run_scalar (head : String) (v : Value) (p : Placement) :
    Compiled.run (.ok [.text head, .value v]) p =
      (.ok (head ++ (p.place v).1), (p.placeAll [v]).2) := by
  apply run_of_fill
  simp [fill, Placement.placeAll]

theorem run_compileComparison (k : ConditionKey) (operand : Operand) (p : Placement) :
    (compileComparison k.field k.operator operand).run p =
      if k.operator.takes operand then
        (.ok (k.comparison (p.placeAll operand.values).1), (p.placeAll operand.values).2)
      else (.error (k.refusal operand), p) := by
  obtain ⟨field, op, suffix⟩ := k
  cases op with
  | oneOf | noneOf =>
    rcases operand with v | ⟨_ | ⟨v, vs⟩⟩ | ⟨low, high⟩
    · rfl
    · rfl
    · exact run_membership _ (v :: vs) p
    · exact run_membership _ [low, high] p
  | between =>
    rcases operand with v | ⟨_ | ⟨low, _ | ⟨high, _ | ⟨v, vs⟩⟩⟩⟩ | ⟨low, high⟩
    · rfl
    · rfl
    · rfl
    · exact run_range field low high p
    · rfl
    · exact run_range field low high p
  | equal | other =>
    cases operand with
    | scalar v => exact run_scalar _ v p
    | list vs => rfl
    | range low high => rfl

theorem run_compileField (key : String) (operand : Operand) (p : Placement) :
    (compileField key operand).run p =
      if (ConditionKey.parse key).operator.takes operand then
        (.ok ((Term.field key operand).sql (p.placeAll operand.values).1),
          (p.placeAll operand.values).2)
      else (.error ((ConditionKey.parse key).refusal operand), p) := by
  have hrun := run_compileComparison (ConditionKey.parse key) operand p
  unfold compileField
  split_ifs at hrun ⊢ with hfits
  · rw [run_append_of_ok hrun]
    show _ = (Except.ok ((ConditionKey.parse key).sql (p.placeAll operand.values).1), _)
    unfold ConditionKey.sql
    cases (ConditionKey.parse key).suffix with
    | none => exact Prod.ext (congrArg Except.ok String.append_empty) rfl
    | some suffix =>
      refine Prod.ext (congrArg Except.ok ?_) rfl
      show _ ++ (" " ++ suffix ++ "") = _
      rw [String.append_empty]
  · exact run_append_of_error hrun _

namespace Term

variable {t : Term} {p : Placement}

theorem run_compile (h : t.fits = true) :
    t.compile.run p = (.ok (t.sql (p.placeAll t.values).1), (p.placeAll t.values).2) := by
  cases t with
  | field key operand => exact (run_compileField key operand p).trans (if_pos h)
  | raw s => exact Prod.ext (congrArg Except.ok String.append_empty) rfl
  | openGroup => rfl
  | closeGroup => rfl

/-- The connective is the separator from the term before. -/
theorem fill_connective (t u : Term) (p : Placement) :
    (u.connective t.joinable).fill p = (t.separator u, p) := by
  cases t with
  | openGroup => rfl
  | _ =>
    cases u with
    | field key operand =>
      show fill (if true && !Text.occurs " OR " key then [.text " AND "] else []) p =
        (if Text.occurs " OR " key then "" else " AND ", p)
      cases Text.occurs " OR " key <;> rfl
    | _ => rfl

theorem run_compile_misfit {key : String} {operand : Operand}
    (h : (ConditionKey.parse key).operator.takes operand = false) :
    (field key operand).compile.run p = (.error ((ConditionKey.parse key).refusal operand), p) :=
  (run_compileField key operand p).trans (if_neg (Bool.eq_false_iff.1 h))

theorem fill_connective_snd (follows : Bool) (t : Term) (p : Placement) :
    ((t.connective follows).fill p).2 = p := by
  unfold connective
  split_ifs <;> rfl

end Term

/-! ## All terms -/

theorem placeAll_values_cons (p : Placement) (t : Term) (ts : List Term) :
    (p.placeAll ((t :: ts).flatMap Term.values)).2 =
      ((p.placeAll t.values).2.placeAll (ts.flatMap Term.values)).2 := by
  rw [List.flatMap_cons, Placement.placeAll_append_snd]

theorem run_compileTerms {follows : Bool} {t : Term} {lead : String}
    (hlead : ∀ p, (t.connective follows).fill p = (lead, p)) {ts : List Term}
    (h : ∀ u ∈ t :: ts, u.fits = true) (p : Placement) :
    (compileTerms follows (t :: ts)).run p =
      (.ok (String.join (List.zipWith (· ++ ·) (lead :: List.zipWith Term.separator (t :: ts) ts)
        (conditionTexts p (t :: ts)))), (p.placeAll ((t :: ts).flatMap Term.values)).2) := by
  have ht := Term.run_compile (p := p) (h t List.mem_cons_self)
  induction ts generalizing follows t lead p with
  | nil =>
    rw [compileTerms, run_after, hlead p, run_append_of_ok ht, List.flatMap_singleton]
    refine Prod.ext (congrArg Except.ok ?_) rfl
    show lead ++ (t.sql _ ++ "") = String.join [lead ++ t.sql _]
    rw [String.append_empty, String.join_cons, String.join_nil, String.append_empty]
  | cons u us ih =>
    have hus : ∀ w ∈ u :: us, w.fits = true := fun w hw => h w (List.mem_cons_of_mem t hw)
    have hu := Term.run_compile (p := (p.placeAll t.values).2) (hus u List.mem_cons_self)
    have hrest := ih (Term.fill_connective t u) hus (p.placeAll t.values).2 hu
    rw [compileTerms, run_after, hlead p, run_append_of_ok ht, hrest, placeAll_values_cons p t]
    refine Prod.ext (congrArg Except.ok ?_) rfl
    show lead ++ (t.sql _ ++ String.join _) = String.join ((lead ++ t.sql _) :: _)
    rw [String.join_cons, String.append_assoc]
    rfl

theorem run_compileTerms_misfit {key : String} {operand : Operand}
    (hmisfit : (ConditionKey.parse key).operator.takes operand = false) {before : List Term}
    (h : ∀ u ∈ before, u.fits = true) (after : List Term) (follows : Bool) (p : Placement) :
    (compileTerms follows (before ++ .field key operand :: after)).run p =
      (.error ((ConditionKey.parse key).refusal operand),
        (p.placeAll (before.flatMap Term.values)).2) := by
  induction before generalizing follows p with
  | nil =>
    rw [List.nil_append, compileTerms, run_after, Term.fill_connective_snd,
      run_append_of_error (Term.run_compile_misfit hmisfit)]
    rfl
  | cons t ts ih =>
    have ht := Term.run_compile (p := p) (h t List.mem_cons_self)
    have hts : ∀ u ∈ ts, u.fits = true := fun u hu => h u (List.mem_cons_of_mem t hu)
    have hrest := ih hts t.joinable (p.placeAll t.values).2
    rw [List.cons_append, compileTerms, run_after, Term.fill_connective_snd, run_append_of_ok ht,
      hrest, placeAll_values_cons]
    rfl

theorem fits_or_misfit (ts : List Term) :
    (∀ t ∈ ts, t.fits = true) ∨ ∃ before key operand after,
      ts = before ++ .field key operand :: after ∧ (∀ t ∈ before, t.fits = true) ∧
        (ConditionKey.parse key).operator.takes operand = false := by
  cases hfind : ts.find? (!·.fits) with
  | none =>
    left
    intro t ht
    simpa using List.find?_eq_none.1 hfind t ht
  | some t =>
    right
    obtain ⟨ht, before, after, hts, hbefore⟩ := List.find?_eq_some_iff_append.1 hfind
    have hmisfit : t.fits = false := by simpa using ht
    cases t with
    | field key operand => exact ⟨before, key, operand, after, hts, by simpa using hbefore, hmisfit⟩
    | _ => cases hmisfit

/-- A condition compiles exactly if the operand of each comparison fits. Then its text is that of
its terms with the separators before them, and its values are placed one after the other. Otherwise
the first comparison whose operand does not fit is refused, and just the values of the terms before
it have been placed. -/
theorem Conditions.compile_run (cs : Conditions) (p : Placement) :
    ((∃ sql, (cs.compile.run p).1 = .ok sql) ↔ ∀ t ∈ cs.terms, t.fits = true) ∧
      ((∀ t ∈ cs.terms, t.fits = true) ∧
          cs.compile.run p =
            (.ok (String.join (List.zipWith (· ++ ·) (separators cs.terms)
              (conditionTexts p cs.terms))), (p.placeAll (cs.terms.flatMap Term.values)).2) ∨
        ∃ before key operand after, cs.terms = before ++ .field key operand :: after ∧
          (∀ t ∈ before, t.fits = true) ∧
          (ConditionKey.parse key).operator.takes operand = false ∧
          cs.compile.run p = (.error ((ConditionKey.parse key).refusal operand),
            (p.placeAll (before.flatMap Term.values)).2)) := by
  unfold Conditions.compile
  obtain hfits | ⟨before, key, operand, after, hterms, hbefore, hmisfit⟩ := fits_or_misfit cs.terms
  · have hrun : (compileTerms false cs.terms).run p =
        (.ok (String.join (List.zipWith (· ++ ·) (separators cs.terms)
          (conditionTexts p cs.terms))), (p.placeAll (cs.terms.flatMap Term.values)).2) := by
      cases hterms : cs.terms with
      | nil => rfl
      | cons t ts =>
        rw [hterms] at hfits
        exact run_compileTerms (fun _ => rfl) hfits p
    exact ⟨⟨fun _ => hfits, fun _ => ⟨_, congrArg Prod.fst hrun⟩⟩, Or.inl ⟨hfits, hrun⟩⟩
  · have hrun := run_compileTerms_misfit hmisfit hbefore after false p
    rw [← hterms] at hrun
    refine ⟨⟨?_, fun hfits => ?_⟩,
      Or.inr ⟨before, key, operand, after, hterms, hbefore, hmisfit, hrun⟩⟩
    · rintro ⟨sql, hsql⟩
      rw [hrun] at hsql
      cases hsql
    · have hfield := hfits (.field key operand) (by simp [hterms])
      exact absurd hfield (Bool.eq_false_iff.1 hmisfit)

/-- A group, a connective of a key's own, and an empty list. -/
example :
    ((Conditions.ofList [.field "uid" (.scalar (.int 7)), .openGroup, .raw "e.end = 0",
      .field " OR e.end:>" (.scalar (.int 9)), .closeGroup, .field "id:in" (.list [])]).compile.run
        {}).1 = .ok "\x60uid\x60 = :dy0 AND (e.end = 0 OR e.end > :dy1) AND 1=0" := by
  decide

end SqlStatement
