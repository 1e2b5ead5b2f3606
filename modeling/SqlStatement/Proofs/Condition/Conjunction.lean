import SqlStatement.Builder.Setters
import SqlStatement.Proofs.Entries.FirstPlaces

/-!
# Conditions added one after the other

Blank conditions count for nothing. As long as all others are texts, their conjunction is a text;
from the first list of terms on it is a list of terms, into which the terms of each condition are
inserted.

* `Condition.conditions`, `conjoined` : a condition as terms, and the conjunction of texts;
* `Criteria.andWhere_conjoins` : all conditions that are added, from empty criteria on.
-/

namespace SqlStatement

/-- The condition as terms; a text is one fragment. -/
def Condition.conditions : Condition → Conditions
  | raw s => .ofList [.raw s]
  | structured cs => cs

/-- The conjunction of texts, each between brackets but for the first. -/
def conjoined (s : String) (ts : List String) : String :=
  s ++ String.join (ts.map fun t => " AND (" ++ t ++ ")")

/-- What texts come to before terms are inserted: no term, or their conjunction as a fragment. -/
def leadingTerms : List String → Conditions
  | [] => {}
  | s :: ss => .ofList [.raw (conjoined s ss)]

/-! ## Two conditions -/

theorem Conditions.isEmpty_eq_false_iff {cs : Conditions} : cs.isEmpty = false ↔ cs.terms ≠ [] :=
  List.isEmpty_eq_false_iff

namespace Condition

variable {a b : Condition} {s t : String} {cs ds : Conditions}

theorem and_of_isEmpty (hb : b.isEmpty = true) : a.and b = a := if_pos hb

theorem and_of_isEmpty_left (ha : a.isEmpty = true) (hb : b.isEmpty = false) : a.and b = b := by
  unfold Condition.and
  rw [if_neg (Bool.eq_false_iff.1 hb), if_pos ha]

theorem and_texts (hs : (raw s).isEmpty = false) (ht : (raw t).isEmpty = false) :
    (raw s).and (raw t) = raw (s ++ " AND (" ++ t ++ ")") := by
  unfold Condition.and
  rw [if_neg (Bool.eq_false_iff.1 ht), if_neg (Bool.eq_false_iff.1 hs)]

/-- Of two conditions that are not both texts the terms of the second are inserted into those of the
first. -/
theorem and_terms (ha : a.isEmpty = false) (hb : b.isEmpty = false)
    (hterms : (∃ cs, a = structured cs) ∨ ∃ ds, b = structured ds) :
    a.and b = structured (a.conditions.merge b.conditions) := by
  unfold Condition.and
  rw [if_neg (Bool.eq_false_iff.1 hb), if_neg (Bool.eq_false_iff.1 ha)]
  cases a with
  | raw s =>
    cases b with
    | raw t => rcases hterms with ⟨cs, hcs⟩ | ⟨ds, hds⟩ <;> contradiction
    | structured ds => rfl
  | structured cs =>
    cases b with
    | raw t => rfl
    | structured ds => rfl

theorem isEmpty_append (hs : (raw s).isEmpty = false) (t : String) :
    (raw (s ++ t)).isEmpty = false := by
  show (s ++ t).toList.all Text.isBlank = false
  have hblank : s.toList.all Text.isBlank = false := hs
  rw [String.toList_append, List.all_append, hblank, Bool.false_and]

theorem isEmpty_merge (hcs : cs.isEmpty = false) (ds : Conditions) :
    (cs.merge ds).isEmpty = false := by
  have hterms := Conditions.isEmpty_eq_false_iff.1 hcs
  have hmerge : (cs.merge ds).terms ≠ [] := by
    show Entries.merge cs.terms ds.terms ≠ []
    rw [Entries.merge_eq cs.nodup]
    simp [hterms]
  exact Conditions.isEmpty_eq_false_iff.2 hmerge

theorem isEmpty_and (ha : a.isEmpty = false) (b : Condition) : (a.and b).isEmpty = false := by
  cases hb : b.isEmpty with
  | true =>
    rw [and_of_isEmpty hb]
    exact ha
  | false =>
    cases a with
    | structured cs =>
      rw [and_terms ha hb (Or.inl ⟨cs, rfl⟩)]
      exact isEmpty_merge ha b.conditions
    | raw s =>
      cases b with
      | structured ds =>
        rw [and_terms ha hb (Or.inr ⟨ds, rfl⟩)]
        have hlead : (Condition.conditions (raw s)).isEmpty = false := rfl
        exact isEmpty_merge hlead ds
      | raw t =>
        rw [and_texts ha hb, String.append_assoc, String.append_assoc]
        exact isEmpty_append ha _

/-! ## Many conditions -/

theorem foldl_and_texts (hs : (raw s).isEmpty = false) {ts : List String}
    (hts : ∀ t ∈ ts, (raw t).isEmpty = false) :
    (ts.map raw).foldl Condition.and (raw s) = raw (conjoined s ts) := by
  induction ts using List.reverseRecOn with
  | nil => exact congrArg raw String.append_empty.symm
  | append_singleton ts t ih =>
    have hrest := ih fun u hu => hts u (List.mem_append_left [t] hu)
    have ht := hts t (List.mem_append_right ts List.mem_cons_self)
    have hlead : (raw (conjoined s ts)).isEmpty = false := isEmpty_append hs _
    rw [List.map_append, List.foldl_append, hrest, List.map_singleton, List.foldl_cons,
      List.foldl_nil, and_texts hlead ht]
    unfold conjoined
    rw [List.map_append, String.join_append]
    simp [String.append_assoc]

theorem foldl_and_terms (hcs : cs.isEmpty = false) {rest : List Condition}
    (hrest : ∀ d ∈ rest, d.isEmpty = false) :
    rest.foldl Condition.and (structured cs) =
      structured (rest.foldl (fun es d => es.merge d.conditions) cs) := by
  induction rest generalizing cs with
  | nil => rfl
  | cons d rest ih =>
    have hd := hrest d List.mem_cons_self
    have hand : (structured cs).and d = structured (cs.merge d.conditions) :=
      and_terms hcs hd (Or.inl ⟨cs, rfl⟩)
    rw [List.foldl_cons, List.foldl_cons, hand]
    exact ih (isEmpty_merge hcs d.conditions) fun e he => hrest e (List.mem_cons_of_mem d he)

theorem terms_foldl_merge (cs : Conditions) (rest : List Condition) :
    (rest.foldl (fun es d => es.merge d.conditions) cs).terms =
      Entries.merge cs.terms (rest.flatMap fun d => d.conditions.terms) := by
  induction rest generalizing cs with
  | nil => rfl
  | cons d rest ih =>
    rw [List.foldl_cons, ih, List.flatMap_cons, Entries.merge_append]
    rfl

theorem foldl_and_mixed {d : Condition} {ds : List Condition} {texts : List String}
    {rest : List Condition} (hds : ∀ e ∈ d :: ds, e.isEmpty = false)
    (heq : d :: ds = texts.map raw ++ structured cs :: rest) :
    ds.foldl Condition.and d = structured
      (rest.foldl (fun es e => es.merge e.conditions) ((leadingTerms texts).merge cs)) := by
  rw [heq] at hds
  have hcs : (structured cs).isEmpty = false :=
    hds _ (List.mem_append_right _ List.mem_cons_self)
  have hrest : ∀ e ∈ rest, e.isEmpty = false := fun e he =>
    hds e (List.mem_append_right _ (List.mem_cons_of_mem _ he))
  cases texts with
  | nil =>
    obtain ⟨rfl, rfl⟩ := List.cons.inj heq
    have hself : (leadingTerms []).merge cs = cs :=
      Conditions.ext (Entries.ofList_of_nodup cs.nodup)
    rw [hself]
    exact foldl_and_terms hcs hrest
  | cons s ss =>
    obtain ⟨rfl, rfl⟩ := List.cons.inj heq
    have hs : (raw s).isEmpty = false := hds _ List.mem_cons_self
    have hss : ∀ t ∈ ss, (raw t).isEmpty = false := fun t ht =>
      hds _ (List.mem_append_left _ (List.mem_cons_of_mem _ (List.mem_map_of_mem ht)))
    have hlead : (raw (conjoined s ss)).isEmpty = false := isEmpty_append hs _
    have hand : (raw (conjoined s ss)).and (structured cs) =
        structured ((leadingTerms (s :: ss)).merge cs) :=
      and_terms hlead hcs (Or.inr ⟨cs, rfl⟩)
    show ((ss.map raw) ++ structured cs :: rest).foldl Condition.and (raw s) = _
    rw [List.foldl_append, foldl_and_texts hs hss, List.foldl_cons, hand]
    have hterms : (leadingTerms (s :: ss)).isEmpty = false := rfl
    exact foldl_and_terms (isEmpty_merge hterms cs) hrest

end Condition

/-! ## Criteria -/

namespace Criteria

theorem filter_foldl_andWhere {a : Condition} (ha : a.isEmpty = false) (conds : List Condition)
    {c : Criteria} (hc : c.filter = some a) :
    (conds.foldl andWhere c).filter =
      some ((conds.filter (!·.isEmpty)).foldl Condition.and a) := by
  induction conds generalizing a c with
  | nil => exact hc
  | cons w conds ih =>
    have hand : (c.andWhere w).filter = some (a.and w) := by
      unfold andWhere
      rw [hc]
    rw [List.foldl_cons, ih (Condition.isEmpty_and ha w) hand]
    cases hw : w.isEmpty with
    | true => rw [Condition.and_of_isEmpty hw, List.filter_cons_of_neg (by simp [hw])]
    | false => rw [List.filter_cons_of_pos (by simp [hw]), List.foldl_cons]

/-- There is no condition on rows, or a blank one. -/
def Unrestricted (c : Criteria) : Prop := ∀ a, c.filter = some a → a.isEmpty = true

variable {c : Criteria} {w : Condition}

theorem Unrestricted.andWhere (hc : c.Unrestricted) (hw : w.isEmpty = true) :
    (c.andWhere w).Unrestricted := by
  rintro _ ⟨⟩
  rcases hfilter : c.filter with _ | b
  · exact hw
  · show (b.and w).isEmpty = true
    rw [Condition.and_of_isEmpty hw]
    exact hc b hfilter

theorem Unrestricted.filter_andWhere (hc : c.Unrestricted) (hw : w.isEmpty = false) :
    (c.andWhere w).filter = some w := by
  refine congrArg some ?_
  rcases hfilter : c.filter with _ | b
  · rfl
  · exact Condition.and_of_isEmpty_left (hc b hfilter) hw

/-- Blank conditions leave no trace once there is one that is not blank. -/
theorem Unrestricted.filter_foldl_andWhere (hc : c.Unrestricted) {conds : List Condition}
    {d : Condition} {ds : List Condition} (h : conds.filter (!·.isEmpty) = d :: ds) :
    (conds.foldl Criteria.andWhere c).filter = some (ds.foldl Condition.and d) := by
  induction conds generalizing c with
  | nil => cases h
  | cons w conds ih =>
    rw [List.foldl_cons]
    cases hw : w.isEmpty with
    | true =>
      rw [List.filter_cons_of_neg (by simp [hw])] at h
      exact ih (hc.andWhere hw) h
    | false =>
      rw [List.filter_cons_of_pos (by simp [hw])] at h
      obtain ⟨rfl, rfl⟩ := List.cons.inj h
      exact Criteria.filter_foldl_andWhere hw conds (hc.filter_andWhere hw)

/-- All conditions that are added to empty criteria, or to those of a new builder. Blank ones leave
no trace once there is one that is not blank.

* If all others are texts, the condition on rows is their conjunction.
* If some are terms, it is what comes of inserting the terms of all in order, of the texts before
  the first list of terms their conjunction as one fragment and of each later text a fragment of its
  own. So each key stands at its first place, with its last operand, and fragments and brackets are
  all there in order. -/
theorem andWhere_conjoins (conds : List Condition) :
    let added := conds.foldl Criteria.andWhere {}
    let builder := conds.foldl Builder.andWhere {}
    let kept := conds.filter (!·.isEmpty)
    builder.draft.criteria = added ∧
      (∀ s ss, kept = (s :: ss).map .raw → added.filter = some (.raw (conjoined s ss))) ∧
      ∀ texts cs rest, kept = texts.map .raw ++ .structured cs :: rest →
        ∃ es : Conditions, added.filter = some (.structured es) ∧
          es = rest.foldl (fun es d => es.merge d.conditions) ((leadingTerms texts).merge cs) ∧
          let all := (leadingTerms texts).terms ++ cs.terms ++
            rest.flatMap fun d => d.conditions.terms
          es.terms = (Entries.firsts all).map (Entries.latest all) ∧
            (∀ key, Entries.find? key es.terms = Entries.find? key all.reverse) ∧
            es.terms.filter Entries.keyless = all.filter Entries.keyless := by
  intro added builder kept
  have hnew : Unrestricted {} := fun a ha => by cases ha
  refine ⟨?_, ?_, ?_⟩
  · exact (List.foldl_hom (fun b : Builder => b.draft.criteria) fun b w => rfl).symm
  · intro s ss hkept
    have hnonblank : ∀ d ∈ kept, d.isEmpty = false := fun d hd => by
      simpa using (List.mem_filter.1 hd).2
    rw [hkept] at hnonblank
    rw [hnew.filter_foldl_andWhere hkept]
    refine congrArg some (Condition.foldl_and_texts (hnonblank _ List.mem_cons_self) ?_)
    exact fun t ht => hnonblank _ (List.mem_cons_of_mem _ (List.mem_map_of_mem ht))
  · intro texts cs rest hkept
    have hnonblank : ∀ d ∈ kept, d.isEmpty = false := fun d hd => by
      simpa using (List.mem_filter.1 hd).2
    rcases hcons : kept with _ | ⟨d, ds⟩
    · rw [hcons] at hkept
      simp at hkept
    · rw [hcons] at hkept hnonblank
      refine ⟨_, ?_, rfl, ?_⟩
      · rw [hnew.filter_foldl_andWhere hcons]
        exact congrArg some (Condition.foldl_and_mixed hnonblank hkept)
      · have hall : (rest.foldl (fun es d => es.merge d.conditions)
            ((leadingTerms texts).merge cs)).terms = Entries.ofList ((leadingTerms texts).terms ++
              cs.terms ++ rest.flatMap fun d => d.conditions.terms) := by
          rw [Condition.terms_foldl_merge, List.append_assoc,
            ← Entries.merge_eq_ofList (leadingTerms texts).nodup, Entries.merge_append]
          rfl
        rw [hall]
        exact ⟨Entries.ofList_eq _, fun key => Entries.find?_ofList key _,
          Entries.filter_keyless_ofList _⟩

end Criteria

end SqlStatement
