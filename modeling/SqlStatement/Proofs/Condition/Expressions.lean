import SqlStatement.Proofs.Condition.Comparisons
import SqlStatement.Proofs.Condition.Connectives
import SqlStatement.Proofs.Condition.Groups

/-!
# Conditions as boolean expressions

A list of terms whose brackets match, with a comparison or a fragment in each group, is an expression
if its comparisons and fragments are. The brackets of a group are those of the expression, and `AND`
stands where a term is joined to the one before it.

* `TermsRead`, `Conditions.WellFormed`, `Condition.WellFormed` : conditions put together from
  expressions;
* `Term.Spells`, `joinedSymbols` : the symbols of a term, and of terms side by side;
* `Condition.WellFormed.reads_compile` : the text of a condition is an expression.
-/

namespace SqlStatement

open Term Compiled

/-- The operand of each comparison fits, and each comparison and each fragment is an expression,
where the values are placed one after the other. -/
def TermsRead (p : Placement) : List Term → Prop
  | [] => True
  | t :: ts => t.fits = true ∧ (t.isEntry = true → ∃ e, Reads (t.sql (p.placeAll t.values).1) e) ∧
    TermsRead (p.placeAll t.values).2 ts

/-- The terms are put together from expressions. No comparison brings a connective of its own. -/
structure Conditions.WellFormed (p : Placement) (cs : Conditions) : Prop where
  balanced : Balanced cs.terms
  filled : Filled cs.terms
  joined : ∀ t ∈ cs.terms, t.isEntry = true → t.joined = true
  reads : TermsRead p cs.terms

/-- The condition has the text of an expression. -/
def Condition.WellFormed (p : Placement) : Condition → Prop
  | raw s => ∃ e, Reads s e
  | structured cs => cs.WellFormed p

theorem termsRead_of_wordy {ts : List Term} (hfits : ∀ t ∈ ts, t.fits = true)
    (hkeys : ∀ key operand, .field key operand ∈ ts → (ConditionKey.parse key).IsWordy)
    (hraws : ∀ s, .raw s ∈ ts → ∃ e, Reads s e) (p : Placement) : TermsRead p ts := by
  induction ts generalizing p with
  | nil => trivial
  | cons t ts ih =>
    have ht := hfits t List.mem_cons_self
    refine ⟨ht, fun hentry => ?_, ih (fun u hu => hfits u (List.mem_cons_of_mem t hu))
      (fun key operand hmem => hkeys key operand (List.mem_cons_of_mem t hmem))
      (fun s hmem => hraws s (List.mem_cons_of_mem t hmem)) _⟩
    cases t with
    | field key operand =>
      exact ((hkeys key operand List.mem_cons_self).phrase_sql ht p).reads
    | raw s => exact hraws s List.mem_cons_self
    | openGroup => cases hentry
    | closeGroup => cases hentry

/-- With keys in plain words it is enough that the fragments are expressions. -/
theorem Conditions.wellFormed_of_wordy {cs : Conditions} (hbalanced : Balanced cs.terms)
    (hfilled : Filled cs.terms) (hfits : ∀ t ∈ cs.terms, t.fits = true)
    (hkeys : ∀ key operand, .field key operand ∈ cs.terms →
      Text.occurs " OR " key = false ∧ (ConditionKey.parse key).IsWordy)
    (hraws : ∀ s, .raw s ∈ cs.terms → ∃ e, Reads s e) (p : Placement) : cs.WellFormed p where
  balanced := hbalanced
  filled := hfilled
  joined t ht _ := by
    cases t with
    | field key operand =>
      show (!Text.occurs " OR " key) = true
      rw [(hkeys key operand ht).1]
      rfl
    | raw s => rfl
    | openGroup => rfl
    | closeGroup => contradiction
  reads := termsRead_of_wordy hfits (fun key operand hmem => (hkeys key operand hmem).2) hraws p

/-! ## The symbols of terms -/

/-- What the symbols of a term are. -/
def Term.Spells : Term → List (Symbol (List Lexeme)) → Prop
  | openGroup, us => us = [.opening]
  | closeGroup, us => us = [.closing]
  | _, us => ∃ e : Expression (List Lexeme), us = e.symbols

/-- The symbols of terms one after the other, given whether they come after a term that can be
joined to. -/
def joinedSymbols (follows : Bool) :
    List (Term × List (Symbol (List Lexeme))) → List (Symbol (List Lexeme))
  | [] => []
  | (t, us) :: bs =>
    (if follows && t.joined then [.conj] else []) ++ (us ++ joinedSymbols t.joinable bs)

namespace Parsing

variable {α : Type}

/-- The terms close no bracket that is not open, leave no group empty and end with an operand. -/
structure Takes (st : Parsing α) (ts : List Term) : Prop where
  nonneg : ∀ before, before <+: ts → 0 ≤ st.outer.length + depth before
  filled : ¬ [openGroup, closeGroup] <:+: ts
  head : st.follows = false → ts ≠ [] ∧ ∀ rest, ts ≠ closeGroup :: rest
  last : ∀ init, ts ≠ init ++ [openGroup]

variable {st st' : Parsing α} {t : Term} {ts : List Term}

theorem Takes.tail (h : st.Takes (t :: ts)) (hfollows : st'.follows = t.joinable)
    (hdepth : (st'.outer.length : Int) = st.outer.length + t.step) : st'.Takes ts where
  nonneg before hb := by
    have hnonneg := h.nonneg (t :: before) ((List.prefix_cons_inj t).2 hb)
    rw [depth_cons] at hnonneg
    omega
  filled hempty := h.filled (List.infix_cons hempty)
  head hopen := by
    have ht : t = openGroup := by
      rw [hfollows] at hopen
      cases t with
      | openGroup => rfl
      | _ => cases hopen
    subst ht
    refine ⟨?_, ?_⟩
    · rintro rfl
      exact h.last [] rfl
    · rintro rest rfl
      exact h.filled ⟨[], rest, rfl⟩
  last init hts := h.last (t :: init) (congrArg (List.cons t) hts)

theorem Takes.step {st : Parsing (List Lexeme)} (h : st.Takes (t :: ts))
    {us : List (Symbol (List Lexeme))} (hspells : t.Spells us)
    (hjoined : t.isEntry = true → t.joined = true) :
    ∃ st' : Parsing (List Lexeme),
      (∀ vs, st.run ((if st.follows && t.joined then [.conj] else []) ++ (us ++ vs)) =
        st'.run vs) ∧ st'.follows = t.joinable ∧
      (st'.outer.length : Int) = st.outer.length + t.step := by
  cases t with
  | field | raw =>
    obtain ⟨e, rfl⟩ := hspells
    obtain ⟨st', hrun, hfollows, houter⟩ := run_entry st e
    rw [hjoined rfl, Bool.and_true]
    exact ⟨st', hrun, hfollows, by rw [houter]; exact (Int.add_zero _).symm⟩
  | openGroup =>
    obtain rfl : us = [.opening] := hspells
    obtain ⟨l, hl⟩ := run_joined st
    refine ⟨wants {} (l :: st.outer), fun vs => ?_, rfl, rfl⟩
    show st.run ((if st.follows && true then _ else _) ++ _) = _
    rw [Bool.and_true, hl]
    rfl
  | closeGroup =>
    obtain rfl : us = [.closing] := hspells
    cases st with
    | wants l outer => exact absurd rfl ((h.head rfl).2 ts)
    | has ors c outer =>
      have hopen := h.nonneg [closeGroup] ⟨ts, rfl⟩
      cases outer with
      | nil =>
        have hnone : (0 : Int) ≤ 0 + -1 := hopen
        omega
      | cons l outer =>
        refine ⟨has l.ors (l.extend (.primary (.group (.after ors c)))) outer, fun vs => rfl, rfl,
          ?_⟩
        show (outer.length : Int) = (outer.length + 1 : Nat) + -1
        omega

end Parsing

/-- Balanced terms without an empty group are read to their end. -/
theorem run_joinedSymbols {bs : List (Term × List (Symbol (List Lexeme)))}
    (hspells : ∀ b ∈ bs, b.1.Spells b.2)
    (hjoined : ∀ b ∈ bs, b.1.isEntry = true → b.1.joined = true)
    {st : Parsing (List Lexeme)} (h : st.Takes (bs.map Prod.fst)) :
    ∃ ors c outer, st.run (joinedSymbols st.follows bs) = some (.has ors c outer) ∧
      (outer.length : Int) = st.outer.length + depth (bs.map Prod.fst) := by
  -- the levels outside the open brackets are as many as the open groups
  induction bs generalizing st with
  | nil =>
    cases st with
    | wants l outer => exact absurd rfl (h.head rfl).1
    | has ors c outer => exact ⟨ors, c, outer, rfl, (Int.add_zero _).symm⟩
  | cons b bs ih =>
    obtain ⟨st', hrun, hfollows, hdepth⟩ := h.step (hspells b List.mem_cons_self)
      (hjoined b List.mem_cons_self)
    obtain ⟨ors, c, outer, hrest, hlength⟩ := ih (fun d hd => hspells d (List.mem_cons_of_mem b hd))
      (fun d hd => hjoined d (List.mem_cons_of_mem b hd)) (h.tail hfollows hdepth)
    refine ⟨ors, c, outer, ?_, ?_⟩
    · rw [hfollows] at hrest
      exact (hrun _).trans hrest
    · rw [hlength, hdepth, Int.add_assoc]
      rfl

/-! ## The text of terms -/

theorem run_compileTerms_first {follows : Bool} {t : Term} {ts : List Term} {p q : Placement}
    {rest : String} (hfirst : (follows && t.joined) = false) (ht : t.fits = true)
    (hrest : (compileTerms t.joinable ts).run (p.placeAll t.values).2 = (.ok rest, q)) :
    (compileTerms follows (t :: ts)).run p =
      (.ok (t.sql (p.placeAll t.values).1 ++ rest), q) := by
  have hlead : t.connective follows = [] := if_neg (Bool.eq_false_iff.1 hfirst)
  have hfill : Template.fill [] p = ("", p) := rfl
  rw [compileTerms, hlead, run_after, hfill, run_append_of_ok (Term.run_compile ht), hrest]
  exact Prod.ext (congrArg Except.ok String.empty_append) rfl

theorem run_compileTerms_joined {t : Term} {ts : List Term} {p q : Placement} {sql : String}
    (ht : t.joined = true) (h : (compileTerms false (t :: ts)).run p = (.ok sql, q)) :
    (compileTerms true (t :: ts)).run p = (.ok (" AND " ++ sql), q) := by
  have hand : t.connective true = [.text " AND "] := if_pos ht
  have hafter : compileTerms true (t :: ts) =
      Compiled.after [.text " AND "] (compileTerms false (t :: ts)) := by
    rw [compileTerms, compileTerms, hand]
    cases t.compile ++ compileTerms t.joinable ts <;> rfl
  have hfill : Template.fill [.text " AND "] p = (" AND ", p) := rfl
  rw [hafter, run_after, hfill, h]
  rfl

/-- Terms have the symbols of each in order, and terms that come after something have theirs after
its symbols. -/
theorem compileTerms_spelled {ts : List Term} {p : Placement} (hreads : TermsRead p ts)
    (hjoined : ∀ t ∈ ts, t.isEntry = true → t.joined = true) :
    ∃ bs q alone more, bs.map Prod.fst = ts ∧ (∀ b ∈ bs, b.1.Spells b.2) ∧
      (compileTerms false ts).run p = (.ok alone, q) ∧
      symbols? alone = some (joinedSymbols false bs) ∧
      (compileTerms true ts).run p = (.ok more, q) ∧
      ∀ s us, symbols? s = some us → symbols? (s ++ more) = some (us ++ joinedSymbols true bs) := by
  -- the text of what comes before is needed as a variable: the brackets and words after a term are
  -- read as parts of its atom unless a closing bracket or a connective stands between them
  induction ts generalizing p with
  | nil =>
    refine ⟨[], p, "", "", rfl, by simp, rfl, rfl, rfl, fun s us h => ?_⟩
    rw [String.append_empty, h]
    exact congrArg some (List.append_nil us).symm
  | cons t ts ih =>
    obtain ⟨hfits, hentry, hrest⟩ := hreads
    obtain ⟨bs, q, alone, more, rfl, hspells, halone, hsymbols, hmore, hafter⟩ :=
      ih hrest fun u hu => hjoined u (List.mem_cons_of_mem t hu)
    have hall : ∀ us, t.Spells us → ∀ b ∈ (t, us) :: bs, b.1.Spells b.2 := fun us hus =>
      List.forall_mem_cons.2 ⟨hus, hspells⟩
    cases t with
    | field | raw =>
      obtain ⟨e, he⟩ := hentry rfl
      have hand := hjoined _ List.mem_cons_self rfl
      have hfirst := run_compileTerms_first (Bool.false_and _) hfits hmore
      have hown := hafter _ _ he
      refine ⟨(_, e.symbols) :: bs, q, _, _, rfl, hall _ ⟨e, rfl⟩, hfirst, hown,
        run_compileTerms_joined hand hfirst, fun s us hs => ?_⟩
      rw [← String.append_assoc, symbols?_and hs hown]
      show _ = some (us ++ ((if _ then _ else _) ++ _))
      rw [Bool.true_and, if_pos hand]
      rfl
    | openGroup =>
      have hfirst := run_compileTerms_first (Bool.false_and _) hfits halone
      have hown := symbols?_opening hsymbols
      refine ⟨(.openGroup, [.opening]) :: bs, q, _, _, rfl, hall _ rfl, hfirst, hown,
        run_compileTerms_joined rfl hfirst, fun s us hs => ?_⟩
      rw [← String.append_assoc]
      exact symbols?_and hs hown
    | closeGroup =>
      -- nothing is put before a closing bracket, whatever comes before
      have hrun : ∀ follows, (compileTerms follows (.closeGroup :: bs.map Prod.fst)).run p =
          (.ok (")" ++ more), q) := fun follows =>
        run_compileTerms_first (Bool.and_false follows) hfits hmore
      have hnil : symbols? "" = some [] := rfl
      have htail := hafter "" [] hnil
      rw [String.empty_append] at htail
      have hclosing : ∀ s us, symbols? s = some us → symbols? (s ++ (")" ++ more)) =
          some (us ++ .closing :: joinedSymbols true bs) := by
        intro s us hs
        rw [← String.append_assoc]
        exact symbols?_closing hs htail
      refine ⟨(.closeGroup, [.closing]) :: bs, q, _, _, rfl, hall _ rfl, hrun false, ?_, hrun true,
        hclosing⟩
      have hfirst := hclosing "" [] hnil
      rwa [String.empty_append] at hfirst

/-! ## Conditions -/

variable {p : Placement} {cs : Conditions} {a b : Condition}

theorem Conditions.WellFormed.reads_compile (h : cs.WellFormed p) (hcs : cs.isEmpty = false) :
    ∃ sql q e, cs.compile.run p = (.ok sql, q) ∧ Reads sql e := by
  obtain ⟨bs, q, sql, -, hterms, hspells, hrun, hsymbols, -⟩ :=
    compileTerms_spelled h.reads h.joined
  have htakes : (Parsing.wants {} [] : Parsing (List Lexeme)).Takes (bs.map Prod.fst) := by
    rw [hterms]
    exact {
      nonneg := fun before hb => by
        have hbefore := h.balanced.nonneg before hb
        show (0 : Int) ≤ 0 + depth before
        rwa [Int.zero_add]
      filled := filled_iff.1 h.filled
      head := fun _ => ⟨Conditions.isEmpty_eq_false_iff.1 hcs, h.balanced.ne_cons⟩
      last := h.balanced.ne_concat }
  obtain ⟨ors, c, outer, hparse, hdepth⟩ := run_joinedSymbols hspells
    (fun b hb => h.joined b.1 (hterms ▸ List.mem_map_of_mem hb)) htakes
  have houter : outer = [] := by
    rw [hterms, h.balanced.closed] at hdepth
    exact List.length_eq_zero_iff.1 (Int.ofNat_inj.1 hdepth)
  subst houter
  have hresult : (Parsing.wants {} []).run (joinedSymbols false bs) = some (.has ors c []) := hparse
  refine ⟨sql, q, .after ors c, hrun, reads_iff.2 ?_⟩
  rw [hsymbols, Option.bind_some]
  unfold parse
  rw [hresult]
  rfl

namespace Condition

theorem run_text (s : String) (p : Placement) : (Compiled.text s).run p = (.ok s, p) :=
  Prod.ext (congrArg Except.ok String.append_empty) rfl

theorem WellFormed.reads_compile (h : a.WellFormed p) (ha : a.isEmpty = false) :
    ∃ sql q e, a.compile.run p = (.ok sql, q) ∧ Reads sql e := by
  cases a with
  | raw s =>
    obtain ⟨e, he⟩ := h
    exact ⟨s, p, e, run_text s p, he⟩
  | structured cs => exact Conditions.WellFormed.reads_compile h ha

end Condition

end SqlStatement
