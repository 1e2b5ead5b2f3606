import Mathlib.Data.List.Infix
import SqlStatement.Proofs.Condition.Conjunction

/-!
# Groups of terms

Brackets among the terms of a condition open and close groups. Inserting the terms of a condition
into those of another keeps brackets balanced and leaves each field as deep as it was, but a field
whose key is there already goes to the place of the older one, out of its own group, which may
become empty.

* `Term.depth`, `Term.Balanced` : open groups, and brackets that match;
* `Term.Filled`, `Term.filled_iff` : no group is empty, that is no bracket closes right after one
  that opens;
* `Condition.and_groups` : the groups of a conjunction.
-/

namespace SqlStatement

namespace Term

def isEntry : Term → Bool
  | field _ _ => true
  | raw _ => true
  | _ => false

/-- By how much a term changes the number of open groups. -/
def step : Term → Int
  | openGroup => 1
  | closeGroup => -1
  | _ => 0

def depth : List Term → Int
  | [] => 0
  | t :: ts => t.step + depth ts

/-- Each closing bracket has an opening one before it, and each opening one is closed. -/
structure Balanced (ts : List Term) : Prop where
  nonneg : ∀ before, before <+: ts → 0 ≤ depth before
  closed : depth ts = 0

/-- Each group has a comparison or a fragment in it. -/
def Filled (ts : List Term) : Prop :=
  ∀ before group after, ts = before ++ openGroup :: (group ++ closeGroup :: after) →
    Balanced group → ∃ t ∈ group, t.isEntry

instance (ts : List Term) : Decidable (Balanced ts) :=
  decidable_of_iff ((∀ before ∈ ts.inits, 0 ≤ depth before) ∧ depth ts = 0)
    ⟨fun h => ⟨fun before hb => h.1 before ((List.mem_inits before ts).2 hb), h.2⟩,
      fun h => ⟨fun before hb => h.nonneg before ((List.mem_inits before ts).1 hb), h.closed⟩⟩

/-! ## Open groups -/

variable {t : Term} {ts us before group after : List Term}

@[simp] theorem depth_nil : depth [] = 0 := rfl

@[simp] theorem depth_cons (t : Term) (ts : List Term) : depth (t :: ts) = t.step + depth ts := rfl

@[simp] theorem depth_append (ts us : List Term) : depth (ts ++ us) = depth ts + depth us := by
  induction ts with
  | nil => rw [List.nil_append, depth_nil, Int.zero_add]
  | cons t ts ih => rw [List.cons_append, depth_cons, depth_cons, ih, Int.add_assoc]

@[simp] theorem step_openGroup : step openGroup = 1 := rfl

theorem step_of_isEntry (h : t.isEntry = true) : t.step = 0 := by
  cases t with
  | field key operand => rfl
  | raw s => rfl
  | openGroup => cases h
  | closeGroup => cases h

theorem isEntry_of_key? {key : String} (h : HasKey.key? t = some key) : t.isEntry = true := by
  cases t with
  | field k operand => rfl
  | _ => cases h

theorem Balanced.append (ht : Balanced ts) (hu : Balanced us) : Balanced (ts ++ us) where
  nonneg := by
    intro before hb
    rcases List.prefix_or_prefix_of_prefix hb (List.prefix_append ts us) with hb' | ⟨rest, rfl⟩
    · exact ht.nonneg before hb'
    · rw [depth_append, ht.closed, Int.zero_add]
      exact hu.nonneg rest ((List.prefix_append_right_inj ts).1 hb)
  closed := by rw [depth_append, ht.closed, hu.closed, Int.add_zero]

theorem Balanced.ne_cons (h : Balanced ts) (rest : List Term) :
    ts ≠ closeGroup :: rest := by
  rintro rfl
  exact absurd (h.nonneg [closeGroup] ⟨rest, rfl⟩) (by decide)

theorem Balanced.ne_concat (h : Balanced ts) (init : List Term) :
    ts ≠ init ++ [openGroup] := by
  rintro rfl
  have hinit : 0 ≤ depth init := h.nonneg init (List.prefix_append _ _)
  have hclosed : depth init + 1 = 0 := by
    have := h.closed
    rwa [depth_append] at this
  omega

/-! ## Empty groups -/

/-- Where brackets follow each other from an opening one to a closing one, some closing one comes
right after an opening one. -/
theorem adjacent_of_brackets (h : ∀ t ∈ group, t.isEntry = false) :
    [openGroup, closeGroup] <:+: openGroup :: (group ++ [closeGroup]) := by
  induction group with
  | nil => exact List.infix_rfl
  | cons t group ih =>
    have hrest := ih fun u hu => h u (List.mem_cons_of_mem t hu)
    have ht := h t List.mem_cons_self
    cases t with
    | field key operand => cases ht
    | raw s => cases ht
    | openGroup => exact List.infix_cons hrest
    | closeGroup => exact ⟨[], group ++ [closeGroup], rfl⟩

theorem filled_iff : Filled ts ↔ ¬ [openGroup, closeGroup] <:+: ts := by
  constructor
  · rintro h ⟨before, after, rfl⟩
    obtain ⟨t, ht, -⟩ := h before [] after (by simp) (by decide)
    cases ht
  · rintro h before group after rfl -
    by_contra hnone
    have hbrackets : ∀ t ∈ group, t.isEntry = false := fun t ht =>
      Bool.eq_false_iff.2 fun hentry => hnone ⟨t, ht, hentry⟩
    refine h ((adjacent_of_brackets hbrackets).trans ⟨before, after, ?_⟩)
    simp

instance (ts : List Term) : Decidable (Filled ts) := decidable_of_iff _ filled_iff.symm

/-! ## Lists put together, mapped and filtered -/

theorem group_append (hts : Balanced ts)
    (h : ts ++ us = before ++ openGroup :: (group ++ closeGroup :: after)) (hgroup : Balanced group) :
    (∃ rest, ts = before ++ openGroup :: (group ++ closeGroup :: rest)) ∨
      ∃ lead, us = lead ++ openGroup :: (group ++ closeGroup :: after) := by
  rcases List.append_eq_append_iff.1 h with ⟨lead, -, hus⟩ | ⟨rest, hrest, hafter⟩
  · exact Or.inr ⟨lead, hus⟩
  rcases rest with _ | ⟨t, rest⟩
  · exact Or.inr ⟨[], hafter.symm⟩
  obtain ⟨rfl, htail⟩ := List.cons.inj hafter
  have hbefore : 0 ≤ depth before := hts.nonneg before ⟨_, hrest.symm⟩
  have hclosed : depth before + (1 + depth rest) = 0 := by
    have := hts.closed
    rwa [hrest, depth_append, depth_cons, step_openGroup] at this
  rcases List.append_eq_append_iff.1 htail with ⟨more, hmore, hus⟩ | ⟨more, rfl, -⟩
  · -- the group ends in the first list
    rcases more with _ | ⟨u, more⟩
    · rw [List.append_nil] at hmore
      rw [hmore, hgroup.closed] at hclosed
      omega
    · obtain ⟨rfl, -⟩ := List.cons.inj hus
      exact Or.inl ⟨more, by rw [hrest, hmore]⟩
  · -- it would end in the second list, and the first would end within it
    have hprefix : 0 ≤ depth rest := hgroup.nonneg rest ⟨more, rfl⟩
    omega

theorem filled_append_iff (hts : Balanced ts) : Filled (ts ++ us) ↔ Filled ts ∧ Filled us := by
  constructor
  · intro h
    refine ⟨?_, ?_⟩
    · rintro before group after rfl
      exact h before group (after ++ us) (by simp)
    · rintro before group after rfl
      exact h (ts ++ before) group after (by simp)
  · rintro ⟨hl, hr⟩ before group after heq hgroup
    rcases group_append hts heq hgroup with ⟨rest, hold⟩ | ⟨lead, hnew⟩
    · exact hl before group rest hold hgroup
    · exact hr lead group after hnew hgroup

theorem depth_map {f : Term → Term} (hf : ∀ t, (f t).step = t.step) (ts : List Term) :
    depth (ts.map f) = depth ts := by
  induction ts with
  | nil => rfl
  | cons t ts ih => rw [List.map_cons, depth_cons, depth_cons, hf, ih]

theorem balanced_map_iff {f : Term → Term} (hf : ∀ t, (f t).step = t.step) :
    Balanced (ts.map f) ↔ Balanced ts := by
  constructor
  · rintro ⟨hnonneg, hclosed⟩
    refine ⟨fun before hb => ?_, (depth_map hf ts).symm.trans hclosed⟩
    rw [← depth_map hf]
    exact hnonneg _ (hb.map f)
  · rintro ⟨hnonneg, hclosed⟩
    refine ⟨fun before hb => ?_, (depth_map hf ts).trans hclosed⟩
    obtain ⟨lead, hlead, rfl⟩ := List.prefix_map_iff.1 hb
    rw [depth_map hf]
    exact hnonneg lead hlead

theorem depth_filter {p : Term → Bool} (hp : ∀ t, p t = false → t.step = 0) (ts : List Term) :
    depth (ts.filter p) = depth ts := by
  induction ts with
  | nil => rfl
  | cons t ts ih =>
    cases ht : p t with
    | true => rw [List.filter_cons_of_pos ht, depth_cons, depth_cons, ih]
    | false =>
      rw [List.filter_cons_of_neg (Bool.eq_false_iff.1 ht), depth_cons, hp t ht, ih, Int.zero_add]

theorem balanced_filter_iff {p : Term → Bool} (hp : ∀ t, p t = false → t.step = 0) :
    Balanced (ts.filter p) ↔ Balanced ts := by
  constructor
  · rintro ⟨hnonneg, hclosed⟩
    refine ⟨fun before hb => ?_, (depth_filter hp ts).symm.trans hclosed⟩
    rw [← depth_filter hp]
    exact hnonneg _ (hb.filter p)
  · rintro ⟨hnonneg, hclosed⟩
    refine ⟨fun before hb => ?_, (depth_filter hp ts).trans hclosed⟩
    obtain ⟨lead, hlead, rfl⟩ := List.prefix_filter_iff.1 hb
    rw [depth_filter hp]
    exact hnonneg lead hlead

end Term

/-! ## Inserted terms -/

open Term

namespace Conditions

variable {cs ds : Conditions}

/-- A term of the first list stays, a comparison with its new operand if there is one; the terms of
the second without a comparison in the first go to the end. -/
theorem terms_merge (cs ds : Conditions) : (cs.merge ds).terms =
    cs.terms.map (Entries.latest ds.terms) ++ ds.terms.filter (Entries.isNew cs.terms) :=
  Entries.merge_eq_of_nodup cs.nodup ds.nodup

theorem step_latest (ts : List Term) (t : Term) : (Entries.latest ts t).step = t.step := by
  have hkey := Entries.key?_latest ts t
  rcases Option.eq_none_or_eq_some (HasKey.key? t) with ht | ⟨key, ht⟩
  · rw [Entries.latest_of_isNew (Entries.isNew_of_keyless ht ts)]
  · rw [step_of_isEntry (isEntry_of_key? ht), step_of_isEntry (isEntry_of_key? (hkey.trans ht))]

theorem step_of_not_isNew {ts : List Term} (t : Term) (h : Entries.isNew ts t = false) :
    t.step = 0 := by
  rcases Option.eq_none_or_eq_some (HasKey.key? t) with ht | ⟨key, ht⟩
  · rw [Entries.isNew_of_keyless ht] at h
    cases h
  · exact step_of_isEntry (isEntry_of_key? ht)

theorem depth_terms_merge_left (ts : List Term) :
    depth (ts.map (Entries.latest ds.terms)) = depth ts :=
  depth_map (step_latest ds.terms) ts

theorem depth_new (ts : List Term) : depth (ts.filter (Entries.isNew cs.terms)) = depth ts :=
  depth_filter step_of_not_isNew ts

theorem balanced_merge (hcs : Balanced cs.terms) (hds : Balanced ds.terms) :
    Balanced (cs.merge ds).terms := by
  rw [terms_merge]
  exact ((balanced_map_iff (step_latest ds.terms)).2 hcs).append
    ((balanced_filter_iff step_of_not_isNew).2 hds)

theorem isEntry_latest {ts : List Term} {t : Term} (h : t.isEntry = true) :
    (Entries.latest ts t).isEntry = true := by
  have hkey := Entries.key?_latest ts t
  rcases Option.eq_none_or_eq_some (HasKey.key? t) with ht | ⟨key, ht⟩
  · rw [Entries.latest_of_isNew (Entries.isNew_of_keyless ht ts)]
    exact h
  · exact isEntry_of_key? (hkey.trans ht)

theorem eq_of_latest_bracket {ts : List Term} {t u : Term} (hu : u.isEntry = false)
    (h : Entries.latest ts t = u) : t = u := by
  rcases Option.eq_none_or_eq_some (HasKey.key? t) with ht | ⟨key, ht⟩
  · rw [← h, Entries.latest_of_isNew (Entries.isNew_of_keyless ht ts)]
  · have hkey := Entries.key?_latest ts t
    rw [h, ht] at hkey
    rw [isEntry_of_key? hkey] at hu
    cases hu

theorem filled_map_latest {ts : List Term} (h : Filled ts) (us : List Term) :
    Filled (ts.map (Entries.latest us)) := by
  intro before group after heq hgroup
  obtain ⟨before', tail, rfl, rfl, htail⟩ := List.map_eq_append_iff.1 heq
  obtain ⟨t, tail', rfl, ht, htail'⟩ := List.map_eq_cons_iff.1 htail
  obtain ⟨group', tail'', rfl, rfl, htail''⟩ := List.map_eq_append_iff.1 htail'
  obtain ⟨u, after', rfl, hu, rfl⟩ := List.map_eq_cons_iff.1 htail''
  rw [eq_of_latest_bracket rfl ht, eq_of_latest_bracket rfl hu] at h
  obtain ⟨v, hv, hentry⟩ := h before' group' after' rfl
    ((balanced_map_iff (step_latest us)).1 hgroup)
  exact ⟨_, List.mem_map_of_mem hv, isEntry_latest hentry⟩

theorem filled_new_iff (ts us : List Term) : Filled (us.filter (Entries.isNew ts)) ↔
    ∀ before group after, us = before ++ .openGroup :: (group ++ .closeGroup :: after) →
      Balanced group → ∃ t ∈ group, t.isEntry ∧ Entries.isNew ts t := by
  have hstep : ∀ t : Term, Entries.isNew ts t = false → t.step = 0 := step_of_not_isNew
  have hopen : Entries.isNew ts Term.openGroup = true := Entries.isNew_of_keyless rfl ts
  have hclose : Entries.isNew ts Term.closeGroup = true := Entries.isNew_of_keyless rfl ts
  constructor
  · rintro h before group after rfl hgroup
    rw [List.filter_append, List.filter_cons_of_pos hopen, List.filter_append,
      List.filter_cons_of_pos hclose] at h
    obtain ⟨t, ht, hentry⟩ := h _ _ _ rfl ((balanced_filter_iff hstep).2 hgroup)
    obtain ⟨hmem, hnew⟩ := List.mem_filter.1 ht
    exact ⟨t, hmem, hentry, hnew⟩
  · intro h before group after heq hgroup
    obtain ⟨before', tail, rfl, -, htail⟩ := List.filter_eq_append_iff.1 heq
    obtain ⟨lead, tail', rfl, -, -, htail'⟩ := List.filter_eq_cons_iff.1 htail
    obtain ⟨group', tail'', rfl, rfl, htail''⟩ := List.filter_eq_append_iff.1 htail'
    obtain ⟨more, after', rfl, hmore, -, -⟩ := List.filter_eq_cons_iff.1 htail''
    -- comparisons that stand at the end of the group and are left out belong to it
    have hnone : more.filter (Entries.isNew ts) = [] := List.filter_eq_nil_iff.2 hmore
    have hwhole : (group' ++ more).filter (Entries.isNew ts) = group'.filter (Entries.isNew ts) := by
      rw [List.filter_append, hnone, List.append_nil]
    rw [← hwhole] at hgroup ⊢
    obtain ⟨t, ht, hentry, hnew⟩ := h (before' ++ lead) (group' ++ more) after' (by simp)
      ((balanced_filter_iff hstep).1 hgroup)
    exact ⟨t, List.mem_filter.2 ⟨ht, hnew⟩, hentry⟩

theorem filled_merge_iff (hcs : Balanced cs.terms) (hfilled : Filled cs.terms) :
    Filled (cs.merge ds).terms ↔ ∀ before group after,
      ds.terms = before ++ .openGroup :: (group ++ .closeGroup :: after) → Balanced group →
        ∃ t ∈ group, t.isEntry ∧ Entries.isNew cs.terms t := by
  have hmap : Balanced (cs.terms.map (Entries.latest ds.terms)) :=
    (balanced_map_iff (step_latest ds.terms)).2 hcs
  rw [terms_merge, filled_append_iff hmap, filled_new_iff]
  exact and_iff_right (filled_map_latest hfilled ds.terms)

theorem new_of_merge {key : String} {operand : Operand} {before after : List Term}
    (hcs : Balanced cs.terms) (hds : ds.terms = before ++ .field key operand :: after)
    (hkey : key ∉ Entries.keys cs.terms) : ∃ before' after',
      (cs.merge ds).terms = before' ++ .field key operand :: after' ∧
        depth before' = depth before := by
  have hnew : Entries.isNew cs.terms (Term.field key operand) = true := by
    unfold Entries.isNew
    exact decide_eq_true hkey
  refine ⟨cs.terms.map (Entries.latest ds.terms) ++ before.filter (Entries.isNew cs.terms),
    after.filter (Entries.isNew cs.terms), ?_, ?_⟩
  · rw [terms_merge, hds, List.filter_append, List.filter_cons_of_pos hnew, List.append_assoc]
  · rw [depth_append, depth_terms_merge_left, hcs.closed, depth_new, Int.zero_add]

/-- A comparison with a key of the first list takes the place of that one. -/
theorem replaced_of_merge {key : String} {operand old : Operand} {before after : List Term}
    (hds : .field key operand ∈ ds.terms) (hcs : cs.terms = before ++ .field key old :: after) :
    ∃ before' after', (cs.merge ds).terms = before' ++ .field key operand :: after' ∧
      before'.length = before.length ∧ depth before' = depth before := by
  have hlatest : Entries.latest ds.terms (.field key old) = .field key operand :=
    Entries.latest_of_sameKey ds.nodup hds (Entries.sameKey_iff.2 ⟨key, rfl, rfl⟩)
  refine ⟨before.map (Entries.latest ds.terms), after.map (Entries.latest ds.terms) ++
    ds.terms.filter (Entries.isNew cs.terms), ?_, List.length_map _,
      depth_terms_merge_left before⟩
  rw [terms_merge, hcs, List.map_append, List.map_cons, hlatest, List.append_assoc]
  rfl

end Conditions

/-! ## Conjunctions -/

namespace Condition

theorem and_structured (cs ds : Conditions) :
    (structured cs).and (structured ds) = structured (cs.merge ds) := by
  cases hds : (structured ds).isEmpty with
  | true =>
    have hterms : ds.terms = [] := List.isEmpty_iff.1 hds
    rw [and_of_isEmpty hds]
    refine congrArg structured (Conditions.ext ?_)
    show cs.terms = Entries.merge cs.terms ds.terms
    rw [hterms, Entries.merge_nil]
  | false =>
    cases hcs : (structured cs).isEmpty with
    | true =>
      have hterms : cs.terms = [] := List.isEmpty_iff.1 hcs
      rw [and_of_isEmpty_left hcs hds]
      refine congrArg structured (Conditions.ext ?_)
      show ds.terms = Entries.merge cs.terms ds.terms
      rw [hterms]
      exact (Entries.ofList_of_nodup ds.nodup).symm
    | false => exact and_terms hcs hds (Or.inl ⟨cs, rfl⟩)

/-- In the conjunction of two lists of terms whose brackets match, and of which the first has no
empty group, brackets match again.

* There is no empty group exactly if each group of the second list has a fragment in it, or a
  comparison whose key the first list does not have.
* A comparison of the second list whose key is new stands in as many groups as it did.
* Any other takes the place of the comparison with its key, in as many groups as that one. -/
theorem and_groups {cs ds : Conditions} (hcs : Balanced cs.terms) (hds : Balanced ds.terms)
    (hfilled : Filled cs.terms) :
    ∃ es : Conditions, (structured cs).and (structured ds) = structured es ∧
      (∀ c : Criteria, c.filter = some (structured cs) →
        (c.andWhere (structured ds)).filter = some (structured es)) ∧
      Balanced es.terms ∧
      (Filled es.terms ↔ ∀ before group after,
        ds.terms = before ++ .openGroup :: (group ++ .closeGroup :: after) → Balanced group →
          ∃ t ∈ group, t.isEntry ∧ Entries.isNew cs.terms t) ∧
      ∀ key operand before after, ds.terms = before ++ .field key operand :: after →
        (key ∉ Entries.keys cs.terms → ∃ before' after',
          es.terms = before' ++ .field key operand :: after' ∧ depth before' = depth before) ∧
        ∀ old lead rest, cs.terms = lead ++ .field key old :: rest → ∃ before' after',
          es.terms = before' ++ .field key operand :: after' ∧
            before'.length = lead.length ∧ depth before' = depth lead := by
  refine ⟨cs.merge ds, and_structured cs ds, ?_, Conditions.balanced_merge hcs hds,
    Conditions.filled_merge_iff hcs hfilled, ?_⟩
  · intro c hc
    unfold Criteria.andWhere
    rw [hc]
    exact congrArg some (and_structured cs ds)
  · intro key operand before after hterms
    have hmem : .field key operand ∈ ds.terms := by
      rw [hterms]
      exact List.mem_append_right before List.mem_cons_self
    exact ⟨fun hkey => Conditions.new_of_merge hcs hterms hkey,
      fun old lead rest hlead => Conditions.replaced_of_merge hmem hlead⟩

/-- Two lists of terms that share a key, each with a group. -/
theorem and_groups_shared :
    let cs := Conditions.ofList [.openGroup, .field "a" (.scalar (.int 1)), .raw "x", .closeGroup]
    let ds := Conditions.ofList [.openGroup, .field "a" (.scalar (.int 2)), .openGroup,
      .field "b" (.scalar (.int 3)), .closeGroup, .closeGroup]
    Balanced cs.terms ∧ Balanced ds.terms ∧ Filled cs.terms ∧
      ∃ es : Conditions, (structured cs).and (structured ds) = structured es ∧
        Balanced es.terms ∧
        (∃ before' after', es.terms = before' ++ .field "b" (.scalar (.int 3)) :: after' ∧
          depth before' = 2) ∧
        ∃ before' after', es.terms = before' ++ .field "a" (.scalar (.int 2)) :: after' ∧
          before'.length = 1 ∧ depth before' = 1 := by
  intro cs ds
  have hcs : Balanced cs.terms := by decide
  have hds : Balanced ds.terms := by decide
  have hfilled : Filled cs.terms := by decide
  obtain ⟨es, hes, -, hbalanced, -, hfields⟩ := and_groups hcs hds hfilled
  have hb := (hfields "b" (.scalar (.int 3)) [.openGroup, .field "a" (.scalar (.int 2)), .openGroup]
    [.closeGroup, .closeGroup] (by decide)).1 (by decide)
  have ha := (hfields "a" (.scalar (.int 2)) [.openGroup] [.openGroup,
    .field "b" (.scalar (.int 3)), .closeGroup, .closeGroup] (by decide)).2 (.scalar (.int 1))
    [.openGroup] [.raw "x", .closeGroup] (by decide)
  exact ⟨hcs, hds, hfilled, es, hes, hbalanced, hb, ha⟩

/-- A comparison that is inserted in another place leaves its group, which may become empty. -/
theorem and_emptied_group :
    ¬ ∀ cs ds : Conditions, Balanced cs.terms → Balanced ds.terms → Filled cs.terms →
      Filled ds.terms → ∃ es : Conditions, (structured cs).and (structured ds) = structured es ∧
        Balanced es.terms ∧ Filled es.terms ∧
        ∀ key operand before after, ds.terms = before ++ .field key operand :: after →
          ∃ before' after', es.terms = before' ++ .field key operand :: after' ∧
            depth before' = depth before := by
  intro h
  obtain ⟨es, hes, -, hfilled, -⟩ := h (.ofList [.field "a" (.scalar (.int 1))])
    (.ofList [.openGroup, .field "a" (.scalar (.int 2)), .closeGroup])
    (by decide) (by decide) (by decide) (by decide)
  rw [and_structured] at hes
  rw [← structured.inj hes] at hfilled
  revert hfilled
  decide

end Condition

end SqlStatement
