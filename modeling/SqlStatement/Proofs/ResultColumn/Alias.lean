import SqlStatement.Proofs.ResultColumn

/-!
# Result columns of expressions with an alias

An expression with an alias has the alias as its result column, whatever stands in the expression,
as long as it closes as many brackets as it opens. A blank expression is trimmed away, and then no
blank space is left before the `AS`.
-/

namespace SqlStatement

theorem toUpper_of_asciiUpper_as {word : String} (h : Text.asciiUpper word = "AS") :
    ∃ a s, word.toList = [a, s] ∧ a.toUpper = 'A' ∧ s.toUpper = 'S' := by
  have hword : word.toList.map Char.toUpper = ['A', 'S'] := by
    simpa [Text.asciiUpper] using congrArg String.toList h
  obtain ⟨a, rest, hrest, ha, hs⟩ := List.map_eq_cons_iff.1 hword
  obtain ⟨s, nothing, rfl, hs, hnothing⟩ := List.map_eq_cons_iff.1 hs
  rw [List.map_eq_nil_iff.1 hnothing] at hrest
  exact ⟨a, s, hrest, ha, hs⟩

namespace Identifier

theorem text_ne_nil (i : Identifier) : i.text.toList ≠ [] := by
  intro h
  have hname := i.trimWhile_text
  rw [h] at hname
  exact i.nonempty (String.toList_eq_nil_iff.1 hname.symm)

theorem space_notMem_text (i : Identifier) : ' ' ∉ i.text.toList :=
  fun h => absurd (isPathChar_of_mem h) (by decide)

end Identifier

theorem bracketDepth_dropWhile_isBlank (cs : List Char) :
    bracketDepth (cs.dropWhile Text.isBlank) = bracketDepth cs := by
  have hblank : ∀ c, Text.isBlank c = false → c ∉ cs.takeWhile Text.isBlank := by
    intro c hc hmem
    rw [List.mem_takeWhile_imp hmem] at hc
    cases hc
  have hstart : bracketDepth (cs.takeWhile Text.isBlank) = 0 :=
    bracketDepth_eq_zero (hblank '(' (by decide)) (hblank ')' (by decide))
  have hsplit := bracketDepth_append (cs.takeWhile Text.isBlank) (cs.dropWhile Text.isBlank)
  rw [List.takeWhile_append_dropWhile, hstart, Int.zero_add] at hsplit
  exact hsplit.symm

/-- An expression has its alias as result column, if it is not blank and closes as many brackets as
it opens. -/
theorem resultColumn_alias {expr word : String} (hblank : Text.isBlankText expr = false)
    (hbrackets : expr.toList.count '(' = expr.toList.count ')')
    (hword : Text.asciiUpper word = "AS") (label : Identifier) :
    resultColumn (expr ++ " " ++ word ++ " " ++ label.text) = label.name := by
  obtain ⟨a, s, hchars, ha, hs⟩ := toUpper_of_asciiUpper_as hword
  have hsplit : (expr ++ " " ++ word ++ " " ++ label.text).toList =
      expr.toList ++ ' ' :: a :: s :: ' ' :: label.text.toList := by simp [hchars]
  have hstart : ∃ c ∈ expr.toList, Text.isBlank c = false := by
    simpa [Text.isBlankText] using hblank
  have hend : ∃ c ∈ (' ' :: a :: s :: ' ' :: label.text.toList).getLast?, Text.isBlank c = false := by
    obtain ⟨c, hc⟩ := Option.ne_none_iff_exists'.1 (List.getLast?_eq_none_iff.not.2 label.text_ne_nil)
    have hmem := Identifier.isPathChar_of_mem (List.mem_of_mem_getLast? hc)
    exact ⟨c, by simp [List.getLast?_cons, hc], isBlank_of_isPathChar hmem⟩
  have hdepth : bracketDepth (expr.toList.dropWhile Text.isBlank) = 0 := by
    rw [bracketDepth_dropWhile_isBlank, bracketDepth, hbrackets, Int.sub_self]
  have hlabel : lastAlias? 0 (expr.toList.dropWhile Text.isBlank ++
      ' ' :: a :: s :: ' ' :: label.text.toList) = some label.text.toList := by
    refine lastAlias?_append ?_
    rw [hdepth]
    exact lastAlias?_label ha hs label.space_notMem_text
  rw [resultColumn_of_alias (hsplit ▸ Text.trimWhile_append hstart hend) hlabel,
    label.trimWhile_text, String.ofList_toList]

/-- The total of a column, with an alias in backticks. -/
def totalAlias : Identifier := ⟨"total", true, by decide, List.all_eq_true.1 (by decide)⟩

/-- A conversion in brackets, an alias before the last one, and a letter beyond ASCII. -/
theorem resultColumn_alias_cast :
    let expr := " DISTINCT CAST(u.\x60größe\x60 AS CHAR) AS "
    Text.isBlankText expr = false ∧ expr.toList.count '(' = expr.toList.count ')' ∧
      Text.asciiUpper "aS" = "AS" ∧
      resultColumn (expr ++ " " ++ "aS" ++ " " ++ totalAlias.text) = "total" := by
  intro expr
  have hblank : Text.isBlankText expr = false := by decide
  have hbrackets : expr.toList.count '(' = expr.toList.count ')' := by decide
  have hword : Text.asciiUpper "aS" = "AS" := by decide
  exact ⟨hblank, hbrackets, hword, resultColumn_alias hblank hbrackets hword totalAlias⟩

end SqlStatement
