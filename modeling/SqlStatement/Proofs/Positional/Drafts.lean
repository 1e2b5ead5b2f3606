import SqlStatement.Proofs.Builder.Instances
import SqlStatement.Proofs.Positional.Plain

/-!
# The placeholders of a plain draft

What a plain draft compiles to can be read back: fields are between backticks or plain, and after
each value stands a blank, a comma, a bracket or nothing.

* `Builder.toSql_positional` : a driver that binds by position finds the placeholders that have been
  given out, in order, with the values that have been placed.
-/

namespace SqlStatement

open Template Compiled

/-! ## Keys -/

theorem inert_quoteField {field : String} (h : PlainText field) : Inert (quoteField field) := by
  unfold quoteField
  by_cases hquoted : (Text.hasChar '\x60' field || Text.hasChar '.' field) = true
  · rw [if_pos hquoted]
    exact h.inert
  · rw [if_neg hquoted]
    refine inert_quoted fun c hc => ?_
    rintro rfl
    exact absurd (h _ hc) (by decide)

theorem plainText_operator {op : String} (h : PlainText op) (ha : Ascii op) :
    PlainText (Operator.parse op).text := by
  have hupper : PlainText (Text.upper (Text.trim op)) :=
    h.trim.upper fun c hc => ha c (mem_of_mem_strip hc)
  unfold Operator.parse Operator.ofToken
  generalize Text.upper (Text.trim op) = token at hupper ⊢
  by_cases hequal : token = "" ∨ token = "="
  · rw [if_pos hequal]
    decide
  rw [if_neg hequal]
  by_cases honeOf : token = "IN"
  · rw [if_pos honeOf]
    decide
  rw [if_neg honeOf]
  by_cases hnoneOf : token = "NOT IN"
  · rw [if_pos hnoneOf]
    decide
  rw [if_neg hnoneOf]
  by_cases hbetween : token = "BETWEEN"
  · rw [if_pos hbetween]
    decide
  rw [if_neg hbetween]
  exact hupper

theorem PlainKey.parse {key : String} (h : PlainKey key) :
    Inert (ConditionKey.parse key).field ∧ PlainText (ConditionKey.parse key).operator.text ∧
      ∀ s, (ConditionKey.parse key).suffix = some s → PlainText s := by
  have hparts : ∀ part ∈ Text.split ':' key, PlainText part := by
    intro part hpart c hc
    obtain ⟨hmem, hne⟩ := mem_of_mem_split hpart hc
    rcases h.plain c hmem with hplain | hcolon
    · exact hplain
    · exact absurd hcolon hne
  have hequal : PlainText Operator.equal.text := by decide
  have hempty : PlainText "" := by decide
  have hascii := h.ascii
  unfold ConditionKey.parse
  generalize Text.split ':' key = parts at hparts hascii ⊢
  rcases parts with _ | ⟨field, _ | ⟨op, rest⟩⟩
  · exact ⟨inert_quoteField hempty, hequal, by simp⟩
  · exact ⟨inert_quoteField (hparts field (by simp)), hequal, by simp⟩
  · have hfield := inert_quoteField (hparts field (by simp))
    have hop := plainText_operator (hparts op (by simp)) (hascii op rfl)
    rcases rest with _ | ⟨suffix, more⟩
    · dsimp only
      exact ⟨hfield, hop, by simp⟩
    · dsimp only
      refine ⟨hfield, hop, fun s hs => ?_⟩
      by_cases hnone : suffix = ""
      · simp [hnone] at hs
      · have hsuffix : suffix = s := by simpa [hnone] using hs
        rw [← hsuffix]
        exact hparts suffix (by simp)

/-! ## Comparisons -/

theorem divides_of_plain {s : String} (hs : PlainText s) {c : Char} (hc : s.toList.head? = some c)
    (hname : continuesName c = false) : Divides s := by
  refine ⟨hs.inert, ?_, ?_⟩
  · rintro rfl
    cases hc
  · intro b hb
    rw [hc] at hb
    cases hb
    exact hname

theorem divides_blank : Divides " " := divides_of_plain (by decide) rfl (by decide)

theorem divides_comma : Divides "," := divides_of_plain (by decide) rfl (by decide)

theorem divides_close : Divides ")" := divides_of_plain (by decide) rfl (by decide)

theorem divides_and : Divides " AND " := divides_of_plain (by decide) rfl (by decide)

theorem readable_valueList (vs : List Value) : (valueList vs).Readable := by
  refine Template.readable_joinWith divides_comma fun t ht => ?_
  obtain ⟨v, -, rfl⟩ := List.mem_map.1 ht
  exact ⟨trivial, trivial⟩

variable {field : String} {op : Operator}

theorem readable_membership (hfield : Inert field) (hop : PlainText op.text) (operand : Operand) :
    (compileMembership field op operand).Readable := by
  have hopen : PlainText " (" := by decide
  have hlead : Inert (field ++ " " ++ op.text ++ " (") :=
    ((hfield.append divides_blank.inert).append hop.inert).append hopen.inert
  unfold compileMembership
  rcases operand.list? with _ | ⟨_ | ⟨v, vs⟩⟩
  · exact readable_fail _
  · refine readable_text (PlainText.inert ?_)
    by_cases honeOf : op = .oneOf
    · rw [if_pos honeOf]
      decide
    · rw [if_neg honeOf]
      decide
  · refine readable_ok (Template.Readable.append ⟨hlead, readable_valueList _⟩ ?_ ?_)
    · exact ⟨divides_close.inert, trivial⟩
    · exact closed_of_divides divides_close []

theorem readable_rangeTemplate (hfield : Inert field) (low high : Value) :
    (rangeTemplate field low high).Readable := by
  have hbetween : PlainText " BETWEEN " := by decide
  exact ⟨hfield.append hbetween.inert, closed_of_divides divides_and _, divides_and.inert, trivial,
    trivial⟩

theorem readable_range (hfield : Inert field) (operand : Operand) :
    (compileRange field operand).Readable := by
  unfold compileRange
  split
  next => exact readable_ok (readable_rangeTemplate hfield _ _)
  next => exact readable_ok (readable_rangeTemplate hfield _ _)
  next => exact readable_fail _
  next => exact readable_fail _

theorem readable_scalar (hfield : Inert field) (hop : PlainText op.text) (operand : Operand) :
    (compileScalar field op operand).Readable := by
  have hlead : Inert (field ++ " " ++ op.text ++ " ") :=
    ((hfield.append divides_blank.inert).append hop.inert).append divides_blank.inert
  unfold compileScalar
  split
  next => exact readable_ok ⟨hlead, trivial, trivial⟩
  next => exact readable_fail _

theorem readable_comparison (hfield : Inert field) (hop : PlainText op.text) (operand : Operand) :
    (compileComparison field op operand).Readable := by
  rcases op with _ | _ | _ | _ | token
  · exact readable_scalar hfield hop operand
  · exact readable_membership hfield hop operand
  · exact readable_membership hfield hop operand
  · exact readable_range hfield operand
  · exact readable_scalar hfield hop operand

theorem readable_field {key : String} (hkey : PlainKey key) (operand : Operand) :
    (compileField key operand).Readable := by
  obtain ⟨hfield, hop, hsuffix⟩ := hkey.parse
  have hcomparison := readable_comparison hfield hop operand
  unfold compileField
  dsimp only
  rcases hs : (ConditionKey.parse key).suffix with _ | s
  · exact hcomparison.append (readable_ok (t := []) trivial) (closed_ok (t := []) trivial)
  · have hdivides := divides_blank.append (hsuffix s hs).inert
    exact hcomparison.append (readable_text hdivides.inert) (closed_text hdivides)

/-! ## Conditions -/

/-- After a term to which others can be joined, the rest keeps apart from it. -/
theorem readable_terms {ts : List Term} (h : ∀ t ∈ ts, t.Plain) (follows : Bool) :
    (compileTerms follows ts).Readable ∧ (follows = true → (compileTerms follows ts).Closed) := by
  induction ts generalizing follows with
  | nil => exact ⟨readable_ok trivial, fun _ => closed_ok trivial⟩
  | cons t ts ih =>
    have ht := h t List.mem_cons_self
    obtain ⟨hrest, hclosed⟩ := ih (fun u hu => h u (List.mem_cons_of_mem t hu)) t.joinable
    have hopen : PlainText "(" := by decide
    have hbody : (t.compile ++ compileTerms t.joinable ts).Readable := by
      rcases t with ⟨key, operand⟩ | sql | _ | _
      · exact (readable_field ht operand).append hrest (hclosed rfl)
      · exact Readable.text_append (PlainText.inert ht) hrest
      · exact Readable.text_append hopen.inert hrest
      · exact Readable.text_append divides_close.inert hrest
    unfold compileTerms Term.connective
    by_cases hand : (follows && t.joined) = true
    · rw [if_pos hand]
      exact ⟨Readable.text_append divides_and.inert hbody, fun _ => closed_text_append divides_and _⟩
    · rw [if_neg hand]
      refine ⟨Readable.after_nil hbody, fun hfollows => ?_⟩
      -- only a closing bracket is not joined to what it comes after
      rcases t with ⟨key, operand⟩ | sql | _ | _
      · simp [hfollows, Term.joined, ht.joined] at hand
      · simp [hfollows, Term.joined] at hand
      · simp [hfollows, Term.joined] at hand
      · exact closed_after_nil (closed_text_append divides_close _)

theorem readable_condition {c : Condition} (h : c.Plain) : c.compile.Readable := by
  rcases c with sql | cs
  · exact readable_text (PlainText.inert h)
  · exact (readable_terms h false).1

theorem readable_optional {c : Option Condition} (h : ∀ w, c = some w → w.Plain) :
    (compileOptional c).Readable := by
  rcases c with _ | w
  · exact readable_ok trivial
  · unfold compileOptional
    dsimp only
    by_cases hempty : w.isEmpty = true
    · rw [if_pos hempty]
      exact readable_ok trivial
    · rw [if_neg hempty]
      exact readable_condition (h w rfl)

/-! ## Criteria -/

namespace Criteria

variable {c : Criteria}

theorem plainText_sort {s : SortOrder} (h : s.Plain) {clause : String}
    (hclause : s.clause? = some clause) : PlainText clause := by
  have hwords : PlainText "ORDER BY " := by decide
  rcases s with sql | _ | ⟨e, es⟩
  · unfold SortOrder.clause? at hclause
    dsimp only at hclause
    by_cases hblank : Text.isBlankText sql = true
    · rw [if_pos hblank] at hclause
      cases hclause
    rw [if_neg hblank] at hclause
    by_cases hoccurs : Text.occurs "ORDER BY" (Text.upper sql) = true
    · rw [if_pos hoccurs] at hclause
      cases hclause
      exact h
    · rw [if_neg hoccurs] at hclause
      cases hclause
      exact plainText_append.2 ⟨hwords, h⟩
  · cases hclause
  · cases hclause
    refine plainText_append.2 ⟨hwords, plainText_intercalate (by decide) fun t ht => ?_⟩
    obtain ⟨⟨column, direction⟩, hmem, rfl⟩ := List.mem_map.1 ht
    obtain ⟨hcolumn, hdirection⟩ := h _ hmem
    have hblank : PlainText " " := by decide
    exact plainText_append.2 ⟨plainText_append.2 ⟨hcolumn, hblank⟩, hdirection⟩

theorem plainText_limit {l : Limit} (h : l.Plain) {clause : String}
    (hclause : l.clause? = some clause) : PlainText clause := by
  have hword : PlainText "LIMIT " := by decide
  have hoffset : PlainText " OFFSET " := by decide
  rcases l with n | ⟨limit, _ | offset⟩ | sql
  · unfold Limit.clause? at hclause
    dsimp only at hclause
    by_cases hpos : 0 < n
    · rw [if_pos hpos] at hclause
      cases hclause
      exact plainText_append.2 ⟨hword, plainText_write n⟩
    · rw [if_neg hpos] at hclause
      cases hclause
  · cases hclause
    exact plainText_append.2 ⟨hword, plainText_write limit⟩
  · cases hclause
    have hlimit := plainText_append.2 ⟨hword, plainText_write limit⟩
    exact plainText_append.2 ⟨plainText_append.2 ⟨hlimit, hoffset⟩, plainText_write offset⟩
  · unfold Limit.clause? at hclause
    dsimp only at hclause
    by_cases hblank : Text.isBlankText sql = true
    · rw [if_pos hblank] at hclause
      cases hclause
    · rw [if_neg hblank] at hclause
      cases hclause
      exact h

theorem plainText_group (h : c.Plain) {clause : String} (hclause : c.groupClause? = some clause) :
    PlainText clause := by
  have hwords : PlainText "GROUP BY " := by decide
  obtain ⟨g, hg, hclause⟩ := Option.bind_eq_some_iff.1 hclause
  by_cases hblank : Text.isBlankText g = true
  · rw [if_pos hblank] at hclause
    cases hclause
  · rw [if_neg hblank] at hclause
    cases hclause
    exact plainText_append.2 ⟨hwords, h.group g hg⟩

theorem readable_clauseTemplate {clause : Option String}
    (h : ∀ s, clause = some s → PlainText s) : (clauseTemplate clause).Readable := by
  rcases clause with _ | s
  · trivial
  · exact ⟨(h s rfl).inert, trivial⟩

theorem readable_clauses (h : c.Plain) : c.compileClauses.Readable := by
  have hword : PlainText "HAVING " := by decide
  refine ((readable_optional h.having).lead hword.inert).map fun having hhaving => ?_
  refine Template.readable_joinWith divides_blank fun t ht => ?_
  have hmem := (List.mem_filter.1 ht).1
  simp only [List.mem_cons, List.not_mem_nil, or_false] at hmem
  rcases hmem with rfl | rfl | rfl | rfl
  · exact readable_clauseTemplate fun s hs => plainText_group h hs
  · exact hhaving
  · refine readable_clauseTemplate fun s hs => ?_
    obtain ⟨sort, hsort, hclause⟩ := Option.bind_eq_some_iff.1 hs
    exact plainText_sort (h.sort sort hsort) hclause
  · refine readable_clauseTemplate fun s hs => ?_
    obtain ⟨limit, hlimit, hclause⟩ := Option.bind_eq_some_iff.1 hs
    exact plainText_limit (h.limit limit hlimit) hclause

/-- The clauses of criteria come after whatever stands before them. -/
theorem readable_criteria (h : c.Plain) : c.compile.Readable ∧ c.compile.Closed := by
  have hwhere : Divides " WHERE " := divides_of_plain (by decide) rfl (by decide)
  have hoptions : c.compileOptions.Readable := Readable.after_params (readable_clauses h)
  have hclosed := closed_lead divides_blank c.compileOptions
  have hfilter := (readable_optional h.filter).lead hwhere.inert
  exact ⟨hfilter.append (hoptions.lead divides_blank.inert) hclosed,
    (closed_lead hwhere _).append hclosed⟩

end Criteria

/-! ## Drafts -/

theorem readable_joins {js : List Join}
    (h : ∀ j ∈ js, PlainText j.kind ∧ PlainText j.table ∧ j.condition.Plain) :
    (compileJoins js).Readable ∧ (compileJoins js).Closed := by
  induction js with
  | nil => exact ⟨readable_ok trivial, closed_ok trivial⟩
  | cons j js ih =>
    obtain ⟨hkind, htable, hcondition⟩ := h j List.mem_cons_self
    obtain ⟨hrest, hclosed⟩ := ih fun k hk => h k (List.mem_cons_of_mem j hk)
    have hon : PlainText " ON " := by decide
    have hlead : Divides (" " ++ j.kind ++ " " ++ j.table ++ " ON ") :=
      (((divides_blank.append hkind.inert).append divides_blank.inert).append htable.inert).append
        hon.inert
    have hjoin : j.compile.Readable :=
      Readable.text_append hlead.inert (readable_condition hcondition)
    exact ⟨hjoin.append hrest hclosed, (closed_text_append hlead _).append hclosed⟩

theorem readable_updateAssignment {a : Assignment} (h : a.Plain) (index : Nat) :
    (updateAssignment index a).Readable := by
  have hequal : PlainText " = " := by decide
  have hnull : PlainText " = NULL" := by decide
  unfold updateAssignment
  split
  next => exact readable_text (PlainText.inert (plainText_append.2 ⟨h, hnull⟩))
  next => exact readable_fail _
  next => exact readable_ok ⟨PlainText.inert (plainText_append.2 ⟨h, hequal⟩), trivial, trivial⟩
  next => exact readable_text (PlainText.inert h)
  next => exact readable_fail _

theorem readable_assignments {as : List Assignment} (h : ∀ a ∈ as, a.Plain) :
    (compileAssignments as).Readable := by
  refine Compiled.readable_joinWith divides_comma fun c hc => ?_
  obtain ⟨⟨a, index⟩, hmem, rfl⟩ := List.mem_map.1 hc
  exact readable_updateAssignment (h a (List.fst_mem_of_mem_zipIdx hmem)) index

theorem dropStart?_of_plain {start s : String} (hs : PlainText s) (hstart : ':' ∈ start.toList) :
    Text.dropStart? start s = none := by
  rcases h : Text.dropStart? start s with _ | t
  · rfl
  · rw [Text.dropStart?_eq_some_iff.1 h, plainText_append] at hs
    exact absurd (hs.1 ':' hstart) (by decide)

/-- Without colons and question marks what is inserted is a value. -/
theorem insertContent_of_plain {content : String} (h : PlainText content) :
    insertContent content = .ok (.value (Value.text content).unquoted) := by
  have hmark : content ≠ "?" := by
    rintro rfl
    exact absurd h (by decide)
  unfold insertContent
  rw [dropStart?_of_plain h (by decide), dropStart?_of_plain h (by decide), if_neg hmark]
  rfl

/-- A plain assignment inserts a value into a column with a plain name, or nothing. -/
theorem insertAssignment_of_plain {index : Nat} {a : Assignment} (h : a.Plain) {c : Contribution}
    (hc : insertAssignment index a = .ok (some c)) :
    PlainText c.column ∧ ∃ v, c.content = .value v := by
  rcases a with ⟨name, v⟩ | v
  · cases hc
    exact ⟨h, v, rfl⟩
  · rcases v with _ | b | n | x | e
    · cases hc
    · cases hc
    · cases hc
    · cases hc
    · have hexpr : insertExpression e = .ok (some c) := hc
      unfold insertExpression at hexpr
      rcases hcut : Text.cut? '=' e with _ | ⟨column, content⟩
      · rw [hcut] at hexpr
        cases hexpr
      · obtain ⟨hcolumn, hcontent⟩ := plainText_of_cut h hcut
        rw [hcut] at hexpr
        dsimp only at hexpr
        by_cases hempty : Text.trim content = ""
        · rw [if_pos hempty] at hexpr
          cases hexpr
        · rw [if_neg hempty, insertContent_of_plain hcontent.trim] at hexpr
          cases hexpr
          exact ⟨hcolumn.trim, _, rfl⟩

theorem insertContributions_of_plain {index : Nat} {as : List Assignment}
    (h : ∀ a ∈ as, a.Plain) {cs : List Contribution} (hcs : insertContributions index as = .ok cs) :
    ∀ c ∈ cs, PlainText c.column ∧ ∃ v, c.content = .value v := by
  induction as generalizing index cs with
  | nil =>
    cases hcs
    simp
  | cons a as ih =>
    unfold insertContributions at hcs
    rcases ha : insertAssignment index a with e | first
    · rw [ha] at hcs
      cases hcs
    · rw [ha] at hcs
      dsimp only at hcs
      rcases hrest : insertContributions (index + 1) as with f | rest
      · rw [hrest] at hcs
        cases hcs
      · rw [hrest] at hcs
        cases hcs
        intro c hc
        rcases List.mem_append.1 hc with hc | hc
        · rw [Option.mem_toList] at hc
          exact insertAssignment_of_plain (h a List.mem_cons_self)
            (ha.trans (congrArg Except.ok hc))
        · exact ih (fun b hb => h b (List.mem_cons_of_mem a hb)) hrest c hc

theorem readable_insertLists {cs : List Contribution}
    (h : ∀ c ∈ cs, PlainText c.column ∧ ∃ v, c.content = .value v) : (insertLists cs).Readable := by
  have hopen : PlainText " (" := by decide
  have hvalues : PlainText ") VALUES (" := by decide
  have hcolumns : PlainText (",".intercalate (cs.map (·.column))) := by
    refine plainText_intercalate (by decide) fun s hs => ?_
    obtain ⟨c, hc, rfl⟩ := List.mem_map.1 hs
    exact (h c hc).1
  have hcontents : (Template.joinWith "," (cs.map fun c => [c.content])).Readable := by
    refine Template.readable_joinWith divides_comma fun t ht => ?_
    obtain ⟨c, hc, rfl⟩ := List.mem_map.1 ht
    obtain ⟨v, hv⟩ := (h c hc).2
    rw [hv]
    exact ⟨trivial, trivial⟩
  have hlead : Template.Readable (.text _ :: Template.joinWith "," _) :=
    ⟨PlainText.inert (plainText_append.2 ⟨plainText_append.2 ⟨hopen, hcolumns⟩, hvalues⟩), hcontents⟩
  exact hlead.append ⟨divides_close.inert, trivial⟩ (closed_of_divides divides_close [])

namespace Draft

variable {d : Draft} {table : String}

theorem readable_compileSelect (h : d.Plain) (ht : PlainText table) :
    (d.compileSelect table).Readable := by
  have hhint : PlainText d.cacheHint := by
    unfold cacheHint
    rcases d.cache with _ | _ | _
    · decide
    · decide
    · decide
  have hprojection : PlainText d.projection := by
    unfold projection
    by_cases hempty : d.columns.isEmpty = true
    · rw [if_pos hempty]
      decide
    · rw [if_neg hempty]
      exact plainText_intercalate (by decide) h.columns
  have hindex : PlainText d.indexHint := by
    have hforce : PlainText " FORCE INDEX (" := by decide
    have hclose : PlainText ")" := by decide
    unfold indexHint
    rcases hi : d.forceIndex with _ | index
    · decide
    · dsimp only
      by_cases hblank : Text.isBlankText index = true
      · rw [if_pos hblank]
        decide
      · rw [if_neg hblank]
        exact plainText_append.2 ⟨plainText_append.2 ⟨hforce, h.forceIndex index hi⟩, hclose⟩
  have hselect : PlainText "SELECT" := by decide
  have hblank : PlainText " " := by decide
  have hfrom : PlainText " FROM " := by decide
  have hlead : PlainText ("SELECT" ++ d.cacheHint ++ " " ++ d.projection ++ " FROM " ++ table ++
      d.indexHint) := by
    simp only [plainText_append]
    exact ⟨⟨⟨⟨⟨⟨hselect, hhint⟩, hblank⟩, hprojection⟩, hfrom⟩, ht⟩, hindex⟩
  obtain ⟨hcriteria, hclosed⟩ := Criteria.readable_criteria h.criteria
  exact (Readable.text_append hlead.inert (readable_joins h.joins).1).append hcriteria hclosed

theorem readable_compileInsert (h : d.Plain) (ht : PlainText table) :
    (d.compileInsert table).Readable := by
  have hinto : PlainText " INTO " := by decide
  have hverb : PlainText (if d.replace = true then "REPLACE" else "INSERT") := by
    by_cases hreplace : d.replace = true
    · rw [if_pos hreplace]
      decide
    · rw [if_neg hreplace]
      decide
  unfold compileInsert
  by_cases hempty : d.values.isEmpty = true
  · rw [if_pos hempty]
    exact readable_fail _
  · rw [if_neg hempty]
    rcases hcs : insertContributions 0 d.values.entries with f | cs
    · rintro _ ⟨⟩
    · exact readable_ok
        ⟨PlainText.inert (plainText_append.2 ⟨plainText_append.2 ⟨hverb, hinto⟩, ht⟩),
          readable_insertLists (insertContributions_of_plain h.values hcs)⟩

theorem readable_compileUpdate (h : d.Plain) (ht : PlainText table) :
    (d.compileUpdate table).Readable := by
  have hupdate : PlainText "UPDATE " := by decide
  have hset : Divides " SET " := divides_of_plain (by decide) rfl (by decide)
  obtain ⟨hjoins, -⟩ := readable_joins h.joins
  obtain ⟨hcriteria, hclosed⟩ := Criteria.readable_criteria h.criteria
  unfold compileUpdate
  by_cases hempty : d.values.isEmpty = true
  · rw [if_pos hempty]
    exact readable_fail _
  · rw [if_neg hempty]
    have hlead := Readable.text_append (plainText_append.2 ⟨hupdate, ht⟩).inert hjoins
    have hassigned := hlead.append_text hset (readable_assignments h.values)
    exact hassigned.append hcriteria hclosed

theorem readable_compileDelete (h : d.Plain) (ht : PlainText table) :
    (d.compileDelete table).Readable := by
  have hdelete : PlainText "DELETE FROM " := by decide
  exact Readable.text_append (plainText_append.2 ⟨hdelete, ht⟩).inert
    (Criteria.readable_criteria h.criteria).1

theorem Plain.readable (h : d.Plain) : d.compile.Readable := by
  unfold compile
  rcases ht : d.table? with _ | table
  · exact readable_fail _
  · have htable : PlainText table := h.table table (Option.filter_eq_some_iff.1 ht).1
    dsimp only
    rcases d.command with _ | _ | _ | _
    · exact readable_compileSelect h htable
    · exact readable_compileInsert h htable
    · exact readable_compileUpdate h htable
    · exact readable_compileDelete h htable

end Draft

namespace Builder

open Placement

/-- Reading the text of a rendering finds the names it has given out. -/
theorem Rendering.order_of_plain {r : Rendering} {s : Statement} (hr : r.draft.Plain)
    (h : r.result = .ok s) : (positional s.sql).order = r.numbers.map generated := by
  rcases hc : r.draft.compile with f | t
  · unfold result renderDraft at h
    rw [hc] at h
    cases h
  · obtain ⟨s', hs', hsql⟩ := exists_result hc
    rw [h] at hs'
    cases hs'
    have horder := Template.order_fill (hr.readable t hc) 0 r.start
    unfold positional numbers
    dsimp only
    rw [hsql, horder, placements_of_compile hc, List.map_map]
    rfl

/-- Whenever a builder with a plain draft gives a statement, after whatever changes and renderings, a
driver that binds by position finds exactly the names that the rendering has given out, in the order
of their placement, so each position is bound to the value placed there. -/
theorem toSql_positional (d : Draft) (n : Nat) (steps : List Step) {s : Statement}
    (h : (run ⟨d, n, none⟩ steps).toSql.1 = .ok s)
    (hplain : (run ⟨d, n, none⟩ steps).draft.Plain) :
    ∃ earlier r, renderings ⟨d, n, none⟩ (steps ++ [.render]) = earlier ++ [r] ∧
      r.draft = (run ⟨d, n, none⟩ steps).draft ∧ r.result = .ok s ∧
      (positional s.sql).order = r.numbers.map generated ∧
      (positional s.sql).order.map s.params.get? =
        r.placements.map fun e => some (.value e.2) := by
  have hist := (history_nil (b := ⟨d, n, none⟩) rfl).run (steps ++ [.render])
  rw [run_append_render, List.nil_append] at hist
  obtain ⟨hdraft, hrendered⟩ := toSql_ok h
  obtain ⟨earlier, r, hrs, hr, hres⟩ := hist.current s hrendered
  have hrplain : r.draft.Plain := by
    rw [hr, hdraft]
    exact hplain
  have horder := Rendering.order_of_plain hrplain hres
  refine ⟨earlier, r, hrs, hr.trans hdraft, hres, horder, ?_⟩
  rw [horder]
  unfold Rendering.numbers
  rw [List.map_map, List.map_map]
  refine List.map_congr_left fun e he => ?_
  have hmem : (generated e.1, Binding.value e.2) ∈ s.params.entries := by
    rw [r.entries_result hres]
    exact List.mem_append_right _ (List.mem_map.2 ⟨e, he, rfl⟩)
  exact Params.mem_entries_iff.1 hmem

/-- A selection from two tables. -/
def bookSearch : List Step :=
  [.set (.table (.aliased "user" "u")),
    .set (.join "left join" (.plain "book b")
      (.structured (.ofList [.raw "b.author = u.id", .field "b.kind:in" (.list [.int 1, .text ":x"])]))),
    .set (.andWhere (.structured (.ofList
      [.field "name:like:COLLATE utf8_bin" (.scalar (.text "'a")), .openGroup,
        .field "u.age:BETWEEN" (.range (.int 20) (.int 30)), .closeGroup])))]

theorem plain_bookSearch : (run ⟨{}, 0, none⟩ bookSearch).draft.Plain := by
  have huser : TableName.Plain (.aliased "user" "u") := ⟨by decide, by decide⟩
  have hbook : TableName.Plain (.plain "book b") := show PlainText "book b" by decide
  have hkind : PlainText "left join" ∧ Ascii "left join" := by decide
  have hon : Condition.Plain (.structured (.ofList
      [.raw "b.author = u.id", .field "b.kind:in" (.list [.int 1, .text ":x"])])) := by
    decide +kernel
  have hwhere : Condition.Plain (.structured (.ofList
      [.field "name:like:COLLATE utf8_bin" (.scalar (.text "'a")), .openGroup,
        .field "u.age:BETWEEN" (.range (.int 20) (.int 30)), .closeGroup])) := by
    decide +kernel
  have htables := (Draft.Plain.empty.setTable huser).join hkind.1 hkind.2 hbook hon
  exact htables.withCriteria (·.andWhere _) (htables.criteria.andWhere hwhere)

/-- Marks inside of values are no placeholders. -/
theorem toSql_positional_bookSearch :
    ∃ s, (run ⟨{}, 0, none⟩ bookSearch).toSql.1 = .ok s ∧
      s.sql = "SELECT * FROM user u LEFT JOIN book b ON b.author = u.id AND b.kind IN (:dy0,:dy1)" ++
        " WHERE `name` LIKE :dy2 COLLATE utf8_bin AND (u.age BETWEEN :dy3 AND :dy4)" ∧
      ∃ r : Rendering, r.result = .ok s ∧ (positional s.sql).order = r.numbers.map generated ∧
        (positional s.sql).order.map s.params.get? =
          r.placements.map fun e => some (.value e.2) := by
  obtain ⟨-, r, -, -, hres, horder, hvalues⟩ :=
    toSql_positional {} 0 bookSearch rfl plain_bookSearch
  exact ⟨_, rfl, by decide +kernel, r, hres, horder, hvalues⟩

end Builder

end SqlStatement
