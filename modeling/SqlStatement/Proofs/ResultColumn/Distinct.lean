import Mathlib.Data.List.Infix
import SqlStatement.Proofs.ResultColumn.Alias

/-!
# Result columns of distinct values

The keyword `DISTINCT` goes from an expression together with all brackets and blank spaces at both
ends of what follows, and not just with one pair of brackets. So the column is that of the expression
alone exactly if the expression does not start or end with a bracket. A call of a function does: it
loses the bracket behind its arguments.

* `WellBracketed`, `BareExpression` : expressions of which `DISTINCT` may select the values;
* `resultColumn_distinct` : when the keyword makes no difference.
-/

namespace SqlStatement

/-! ## Expressions -/

/-- Each bracket that is closed has been opened before, and all are closed in the end. -/
structure WellBracketed (cs : List Char) : Prop where
  opened : ∀ a, a <+: cs → 0 ≤ bracketDepth a
  closed : bracketDepth cs = 0

instance (cs : List Char) : Decidable (WellBracketed cs) :=
  decidable_of_iff ((∀ a ∈ cs.inits, 0 ≤ bracketDepth a) ∧ bracketDepth cs = 0)
    ⟨fun ⟨opened, closed⟩ => ⟨fun a ha => opened a ((List.mem_inits a cs).2 ha), closed⟩,
      fun h => ⟨fun a ha => h.opened a ((List.mem_inits a cs).1 ha), h.closed⟩⟩

namespace WellBracketed

variable {cs : List Char}

theorem head?_ne (h : WellBracketed cs) : cs.head? ≠ some ')' := by
  intro hhead
  obtain ⟨rest, rfl⟩ := List.head?_eq_some_iff.1 hhead
  exact absurd (h.opened [')'] ⟨rest, rfl⟩) (by decide)

theorem getLast?_ne (h : WellBracketed cs) : cs.getLast? ≠ some '(' := by
  intro hlast
  obtain ⟨start, rfl⟩ := List.getLast?_eq_some_iff.1 hlast
  have hopened := h.opened start ⟨['('], rfl⟩
  have hclosed := h.closed
  have hone : bracketDepth ['('] = 1 := rfl
  rw [bracketDepth_append] at hclosed
  omega

end WellBracketed

/-- An expression without blanks around it, without backticks, an alias and `DISTINCT`. -/
structure BareExpression where
  text : String
  nonempty : text ≠ ""
  trimmed : Text.trim text = text
  balanced : WellBracketed text.toList
  unquoted : '\x60' ∉ text.toList
  unaliased : ∀ a b, text.toList = a ++ b → bracketDepth a = 0 → startsAlias b = false
  withoutKeyword : startsDistinct text.toList = false

namespace BareExpression

variable (x : BareExpression)

/-- A bracket stands at one of the ends. -/
def Bracketed : Prop := x.text.toList.head? = some '(' ∨ x.text.toList.getLast? = some ')'

/-- The expression makes an alias with a blank space before it. -/
def StartsWithAs : Prop := startsAlias (' ' :: x.text.toList) = true

instance : Decidable x.Bracketed := inferInstanceAs (Decidable (_ ∨ _))

instance : Decidable x.StartsWithAs := inferInstanceAs (Decidable (_ = _))

def stripped : List Char := Text.trimWhile isDistinctEdge x.text.toList

theorem text_ne_nil : x.text.toList ≠ [] := fun h => x.nonempty (String.toList_eq_nil_iff.1 h)

theorem trimmed_isBlank : Text.Trimmed Text.isBlank x.text.toList :=
  Text.trim_eq_self_iff.1 x.trimmed

theorem lastAlias?_text : lastAlias? 0 x.text.toList = none :=
  lastAlias?_zero_eq_none_iff.2 x.unaliased

theorem resultColumn_text : resultColumn x.text = String.ofList (unqualified x.text.toList) := by
  have htrim := Text.trimWhile_eq_self_iff.2 x.trimmed_isBlank
  rw [resultColumn_of_unaliased htrim x.lastAlias?_text, withoutDistinct, x.withoutKeyword]
  rfl

theorem isDistinctEdge_iff {c : Char} (hmem : c ∈ x.text.toList) (hblank : Text.isBlank c = false) :
    isDistinctEdge c = true ↔ c = '(' ∨ c = ')' := by
  have hquote : c ≠ '\x60' := ne_of_mem_of_not_mem hmem x.unquoted
  have hspace : c ≠ ' ' := by
    rintro rfl
    exact absurd hblank (by decide)
  simp [isDistinctEdge, isNameEdge, hquote, hspace]

theorem trimmed_isDistinctEdge_iff :
    Text.Trimmed isDistinctEdge x.text.toList ↔ ¬ x.Bracketed := by
  obtain ⟨hhead, hlast⟩ := x.trimmed_isBlank
  constructor
  · rintro ⟨hstart, hend⟩ (hopen | hclose)
    · exact absurd (hstart '(' hopen) (by decide)
    · exact absurd (hend ')' hclose) (by decide)
  · intro h
    unfold Bracketed at h
    rw [not_or] at h
    refine ⟨fun c hc => ?_, fun c hc => ?_⟩
    · rw [Bool.eq_false_iff, ne_eq, x.isDistinctEdge_iff (List.mem_of_mem_head? hc) (hhead c hc)]
      rintro (rfl | rfl)
      · exact h.1 hc
      · exact x.balanced.head?_ne hc
    · rw [Bool.eq_false_iff, ne_eq, x.isDistinctEdge_iff (List.mem_of_mem_getLast? hc) (hlast c hc)]
      rintro (rfl | rfl)
      · exact x.balanced.getLast?_ne hc
      · exact h.2 hc

end BareExpression

/-! ## The keyword -/

/-- The keyword in any letter case. -/
def Keyword (word : String) : Prop := Text.asciiLower word = "distinct"

instance : DecidablePred Keyword := fun _ => inferInstanceAs (Decidable (_ = _))

namespace Keyword

variable {word : String} {c : Char} {rest : List Char}

theorem map_toLower (h : Keyword word) : word.toList.map Char.toLower = "distinct".toList := by
  have hlists := congrArg String.toList h
  rwa [Text.asciiLower, String.toList_ofList] at hlists

theorem length_toList (h : Keyword word) : word.toList.length = 8 := by
  simpa using congrArg List.length h.map_toLower

theorem toLower_mem (h : Keyword word) (hc : c ∈ word.toList) : c.toLower ∈ "distinct".toList :=
  h.map_toLower ▸ List.mem_map_of_mem hc

theorem notMem (h : Keyword word) (hc : c.toLower ∉ "distinct".toList) : c ∉ word.toList :=
  fun hmem => hc (h.toLower_mem hmem)

theorem bracketDepth_toList (h : Keyword word) : bracketDepth word.toList = 0 :=
  bracketDepth_eq_zero (h.notMem (by decide)) (h.notMem (by decide))

theorem isBlank_of_mem (h : Keyword word) (hc : c ∈ word.toList) : Text.isBlank c = false := by
  have hletters : "distinct".toList.all (!Text.isBlank ·) := by decide
  exact Text.isBlank_of_toLower (by simpa using List.all_eq_true.1 hletters _ (h.toLower_mem hc))

theorem trimWhile_append (h : Keyword word) (hrest : ∃ c ∈ rest.getLast?, Text.isBlank c = false) :
    Text.trimWhile Text.isBlank (word.toList ++ rest) = word.toList ++ rest := by
  obtain ⟨c, cs, hword⟩ := List.exists_cons_of_length_eq_add_one h.length_toList
  have hc : c ∈ word.toList := hword ▸ List.mem_cons_self
  rw [Text.trimWhile_append ⟨c, hc, h.isBlank_of_mem hc⟩ hrest, hword,
    List.dropWhile_cons_of_neg (Bool.eq_false_iff.1 (h.isBlank_of_mem hc))]

/-- The keyword goes together with all brackets and blank spaces at the ends of what follows. -/
theorem withoutDistinct_append (h : Keyword word) (hc : c = ' ' ∨ c = '(') :
    withoutDistinct (word.toList ++ c :: rest) = Text.trimWhile isDistinctEdge rest := by
  have hstarts : startsDistinct (word.toList ++ c :: rest) = true := by
    have hhead : (word.toList ++ c :: rest).take 9 = word.toList ++ [c] := by
      rw [List.take_append, h.length_toList, List.take_of_length_le (by rw [h.length_toList]; decide)]
      rfl
    unfold startsDistinct
    rw [hhead, List.map_append, h.map_toLower]
    obtain rfl | rfl := hc
    · decide
    · decide
  have hedge : isDistinctEdge c = true := by
    obtain rfl | rfl := hc
    · decide
    · decide
  unfold withoutDistinct
  rw [if_pos hstarts, List.drop_left' h.length_toList]
  simpa using Text.trimWhile_surrounded (l := [c]) (r := []) (by simpa using hedge) (by simp) rest

end Keyword

/-! ## Expressions after the keyword -/

namespace BareExpression

variable (x : BareExpression) {word : String}

/-- With a pair of brackets around the expression, no `AS` in it stands outside brackets. -/
theorem lastAlias?_bracketed : lastAlias? 1 (x.text.toList ++ [')']) = none := by
  refine lastAlias?_eq_none_iff.2 fun a b hab hdepth => ?_
  obtain ⟨rest, -, hrest⟩ | ⟨rest, ha, -⟩ := List.append_eq_append_iff.1 hab
  · -- only the closing bracket is left, which is too short
    rw [Bool.eq_false_iff]
    intro hstarts
    obtain ⟨_, _, _, -, -, rfl⟩ := startsAlias_iff.1 hstarts
    have hlength := congrArg List.length hrest
    simp at hlength
    omega
  · have hopened := x.balanced.opened a ⟨rest, ha.symm⟩
    omega

theorem resultColumn_distinct_bracket (h : Keyword word) :
    resultColumn (word ++ "(" ++ x.text ++ ")") = String.ofList (unqualified x.stripped) := by
  have hsplit : (word ++ "(" ++ x.text ++ ")").toList =
      word.toList ++ '(' :: (x.text.toList ++ [')']) := by simp
  have hend : ∃ c ∈ ('(' :: (x.text.toList ++ [')'])).getLast?, Text.isBlank c = false :=
    ⟨')', by simp [List.getLast?_cons], by decide⟩
  have hnone : lastAlias? 0 (word.toList ++ '(' :: (x.text.toList ++ [')'])) = none := by
    rw [lastAlias?_spaceless_append (h.notMem (by decide)), h.bracketDepth_toList, lastAlias?_cons,
      startsAlias_cons_eq_false (Or.inl (by decide))]
    simpa [bracketDepth] using x.lastAlias?_bracketed
  have hstripped : Text.trimWhile isDistinctEdge (x.text.toList ++ [')']) = x.stripped :=
    Text.trimWhile_surrounded (l := []) (by simp) (List.forall_mem_singleton.2 rfl) x.text.toList
  have htrim : Text.trimWhile Text.isBlank (word ++ "(" ++ x.text ++ ")").toList =
      word.toList ++ '(' :: (x.text.toList ++ [')']) := by rw [hsplit, h.trimWhile_append hend]
  rw [resultColumn_of_unaliased htrim hnone, h.withoutDistinct_append (Or.inr rfl), hstripped]

/-- An expression that starts with `AS` is taken for an alias of the keyword. -/
theorem resultColumn_distinct_space (h : Keyword word) :
    resultColumn (word ++ " " ++ x.text) =
      if x.StartsWithAs then String.ofList (Text.trimWhile isNameEdge (x.text.toList.drop 3))
      else String.ofList (unqualified x.stripped) := by
  have hsplit : (word ++ " " ++ x.text).toList = word.toList ++ ' ' :: x.text.toList := by simp
  have hend : ∃ c ∈ (' ' :: x.text.toList).getLast?, Text.isBlank c = false := by
    obtain ⟨c, hc⟩ := Option.ne_none_iff_exists'.1 (List.getLast?_eq_none_iff.not.2 x.text_ne_nil)
    exact ⟨c, by simp [List.getLast?_cons, hc], x.trimmed_isBlank.2 c hc⟩
  have halias : lastAlias? 0 (word.toList ++ ' ' :: x.text.toList) =
      if x.StartsWithAs then some (x.text.toList.drop 3) else none := by
    rw [lastAlias?_spaceless_append (h.notMem (by decide)), h.bracketDepth_toList, lastAlias?_cons]
    have hrest : lastAlias? (0 + 0 + bracketDepth [' ']) x.text.toList = none := x.lastAlias?_text
    rw [hrest, Option.none_or]
    exact if_congr (and_iff_right rfl) rfl rfl
  have htrim : Text.trimWhile Text.isBlank (word ++ " " ++ x.text).toList =
      word.toList ++ ' ' :: x.text.toList := by rw [hsplit, h.trimWhile_append hend]
  split_ifs with has
  · exact resultColumn_of_alias htrim (halias.trans (if_pos has))
  · rw [resultColumn_of_unaliased htrim (halias.trans (if_neg has)),
      h.withoutDistinct_append (Or.inl rfl)]
    rfl

end BareExpression

/-! ## When the keyword makes no difference -/

theorem length_unqualified_le (cs : List Char) : (unqualified cs).length ≤ cs.length := by
  unfold unqualified
  split_ifs with hpath
  · split
    next name hname =>
      exact (Text.trimWhile_infix name).length_le.trans (Text.afterLastIn?_suffix hname).length_le
    next => exact Nat.le_refl _
  · exact Nat.le_refl _

theorem unqualified_eq_self {cs : List Char} {c : Char} (hmem : c ∈ cs) (hc : isPathChar c = false) :
    unqualified cs = cs := by
  refine if_neg fun hall => ?_
  rw [List.all_eq_true.1 hall c hmem] at hc
  cases hc

namespace BareExpression

variable (x : BareExpression)

theorem unqualified_bracketed (h : x.Bracketed) : unqualified x.text.toList = x.text.toList := by
  obtain hopen | hclose := h
  · exact unqualified_eq_self (List.mem_of_mem_head? hopen) (by decide)
  · exact unqualified_eq_self (List.mem_of_mem_getLast? hclose) (by decide)

/-- A bracket at an end is lost, and without one there is nothing to lose. -/
theorem unqualified_stripped_iff :
    unqualified x.stripped = unqualified x.text.toList ↔ ¬ x.Bracketed := by
  constructor
  · intro heq hbracketed
    have hinfix : x.stripped <:+: x.text.toList := Text.trimWhile_infix _
    have hlength := length_unqualified_le x.stripped
    rw [heq, x.unqualified_bracketed hbracketed] at hlength
    have hself : x.stripped = x.text.toList :=
      hinfix.eq_of_length (Nat.le_antisymm hinfix.length_le hlength)
    exact x.trimmed_isDistinctEdge_iff.1 (Text.trimWhile_eq_self_iff.1 hself) hbracketed
  · intro h
    rw [stripped, Text.trimWhile_eq_self_iff.2 (x.trimmed_isDistinctEdge_iff.2 h)]

theorem alias_ne_unqualified (h : x.StartsWithAs) :
    Text.trimWhile isNameEdge (x.text.toList.drop 3) ≠ unqualified x.text.toList := by
  obtain ⟨a, s, rest, -, -, hchars⟩ := startsAlias_iff.1 h
  rw [(List.cons.inj hchars).2, unqualified_eq_self (c := ' ') (by simp) (by decide)]
  intro heq
  have hle := (Text.trimWhile_infix (p := isNameEdge) rest).length_le
  have hlength := congrArg List.length heq
  simp only [List.drop_succ_cons, List.drop_zero, List.length_cons] at hlength
  omega

end BareExpression

/-- Of an expression after `DISTINCT`, all brackets and blank spaces at the ends are lost. With one
pair of brackets added around the expression, the column is that of the expression alone exactly if
it has no brackets at its own ends. With a blank space instead, it must not start with `AS` either,
which makes the rest of it an alias. -/
theorem resultColumn_distinct (x : BareExpression) {word : String} (h : Keyword word) :
    (resultColumn (word ++ "(" ++ x.text ++ ")") = resultColumn x.text ↔ ¬ x.Bracketed) ∧
      (resultColumn (word ++ " " ++ x.text) = resultColumn x.text ↔
        ¬ x.Bracketed ∧ ¬ x.StartsWithAs) ∧
      resultColumn (word ++ "(" ++ x.text ++ ")") = String.ofList (unqualified x.stripped) ∧
      resultColumn (word ++ " " ++ x.text) =
        if x.StartsWithAs then String.ofList (Text.trimWhile isNameEdge (x.text.toList.drop 3))
        else String.ofList (unqualified x.stripped) := by
  have hbracket := x.resultColumn_distinct_bracket h
  have hspace := x.resultColumn_distinct_space h
  refine ⟨?_, ?_, hbracket, hspace⟩
  · rw [hbracket, x.resultColumn_text, String.ofList_inj, x.unqualified_stripped_iff]
  · rw [hspace, x.resultColumn_text]
    by_cases has : x.StartsWithAs
    · rw [if_pos has, String.ofList_inj]
      exact iff_of_false (x.alias_ne_unqualified has) fun h => h.2 has
    · rw [if_neg has, String.ofList_inj, x.unqualified_stripped_iff]
      exact (and_iff_left has).symm

/-- Brackets and an `AS` inside, none of them at the ends. -/
def ageAndName : BareExpression where
  text := "CAST(u.age AS CHAR) || u.name"
  nonempty := by decide
  trimmed := by decide +kernel
  balanced := by decide +kernel
  unquoted := by decide
  unaliased := lastAlias?_zero_eq_none_iff.1 (by decide +kernel)
  withoutKeyword := by decide

/-- Its column is the same with and without the keyword. -/
theorem resultColumn_distinct_ageAndName :
    Keyword "Distinct" ∧
      resultColumn ("Distinct" ++ "(" ++ ageAndName.text ++ ")") = resultColumn ageAndName.text ∧
      resultColumn ("Distinct" ++ " " ++ ageAndName.text) = resultColumn ageAndName.text := by
  have hword : Keyword "Distinct" := by decide
  obtain ⟨hbracket, hspace, -, -⟩ := resultColumn_distinct ageAndName hword
  exact ⟨hword, hbracket.2 (by decide), hspace.2 ⟨by decide, by decide⟩⟩

/-- A call of a function. -/
def lowerEmail : BareExpression where
  text := "LOWER(email)"
  nonempty := by decide
  trimmed := by decide
  balanced := by decide +kernel
  unquoted := by decide
  unaliased := lastAlias?_zero_eq_none_iff.1 (by decide)
  withoutKeyword := by decide

/-- The call loses its bracket, where the database keeps it in the name of the column. -/
theorem resultColumn_lowerEmail :
    Keyword "DISTINCT" ∧
      resultColumn ("DISTINCT" ++ " " ++ lowerEmail.text) ≠ resultColumn lowerEmail.text ∧
      resultColumn ("DISTINCT" ++ "(" ++ lowerEmail.text ++ ")") ≠ resultColumn lowerEmail.text ∧
      (Draft.selectMap {} "DISTINCT LOWER(email)" (.single "name")).mapOption =
        some ⟨"LOWER(email", false, .single "name"⟩ := by
  decide +kernel

end SqlStatement
