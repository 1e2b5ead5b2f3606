import SqlStatement.Proofs.Integer
import SqlStatement.Row.FetchMap

/-!
# Keys and their texts

A text is an integer key exactly if it is how the integer is written, and then it binds and counts
as that integer too. So a key is told apart by its text: a text that has become a key can be got
back from it, and a key that has come from a cell from its text.

* `MapKey.ofText_canonical` : all of it.
-/

namespace SqlStatement

namespace MapKey

variable {s t : String} {n : Int64}

theorem ofText_eq_int_iff : ofText s = int n ↔ s = Integer.write n := by
  rw [← Integer.canonical?_eq_some_iff]
  unfold ofText
  split
  next m hm => rw [hm, int.injEq, Option.some.injEq]
  next hnone => simp [hnone]

theorem ofText_eq_text_iff : ofText s = text s ↔ ∀ n, s ≠ Integer.write n := by
  simp only [ne_eq, ← Integer.canonical?_eq_some_iff, ← Option.eq_none_iff_forall_ne_some]
  unfold ofText
  split
  next m hm => simp [hm]
  next hnone => simp [hnone]

theorem ofText_write (n : Int64) : ofText (Integer.write n) = int n := ofText_eq_int_iff.2 rfl

/-- No text is lost in its key. -/
theorem display_ofText (s : String) : (ofText s).display = s := by
  by_cases h : ∃ n, s = Integer.write n
  · obtain ⟨n, rfl⟩ := h
    rw [ofText_write, display]
  · rw [ofText_eq_text_iff.2 fun n hn => h ⟨n, hn⟩, display]

theorem ofText_inj : ofText s = ofText t ↔ s = t := by
  refine ⟨fun h => ?_, congrArg ofText⟩
  rw [← display_ofText s, h, display_ofText]

/-- The key of a cell is the key of its own text, which need not be the text of the cell. -/
theorem ofText_display_ofValue (v : Value) : ofText (ofValue v).display = ofValue v := by
  cases v with
  | null => rfl
  | bool b => exact ofText_write _
  | int n => exact ofText_write n
  | float x => exact ofText_write _
  | text s => exact congrArg ofText (display_ofText s)

end MapKey

/-- Rows whose cells are texts are collected under one key only if the texts are equal. -/
theorem Row.mapKey_eq_iff {r r' : Row} {column s t : String} (h : r.get? column = some (.text s))
    (h' : r'.get? column = some (.text t)) : r.mapKey column = r'.mapKey column ↔ s = t := by
  have hkey : r.mapKey column = .ok (MapKey.ofText s) := by
    unfold mapKey require
    rw [h]
    rfl
  have hkey' : r'.mapKey column = .ok (MapKey.ofText t) := by
    unfold mapKey require
    rw [h']
    rfl
  rw [hkey, hkey', Except.ok.injEq, MapKey.ofText_inj]

namespace Value

theorem paramType_write (n : Int64) : (text (Integer.write n)).paramType = .integer := by
  rw [paramType, Integer.plain?_write]
  rfl

theorem integer?_write (n : Int64) : (text (Integer.write n)).integer? = some n := by
  rw [integer?, Integer.trim_write, Integer.signed?_write]

end Value

namespace MapKey

/-- A text becomes an integer key exactly if it is how the integer is written, and else stays as it
is. The text of its key is the text itself, so that rows with different texts as cells never come
under one key; the text of any key that has come from a text or from a cell is read as this key; and
a text that becomes an integer key binds as an integer and has it as its value. -/
theorem ofText_canonical (s : String) :
    (∀ n, ofText s = int n ↔ s = Integer.write n) ∧
      (ofText s = text s ↔ ∀ n, s ≠ Integer.write n) ∧
      (ofText s).display = s ∧
      (∀ (t column : String) (r r' : Row), r.get? column = some (.text s) →
        r'.get? column = some (.text t) → (r.mapKey column = r'.mapKey column ↔ s = t)) ∧
      ofText (ofText s).display = ofText s ∧
      (∀ v, ofText (ofValue v).display = ofValue v) ∧
      ∀ n, ofText s = int n →
        (Value.text s).paramType = .integer ∧ (Value.text s).integer? = some n := by
  refine ⟨fun n => ofText_eq_int_iff, ofText_eq_text_iff, display_ofText s,
    fun t column r r' => Row.mapKey_eq_iff, congrArg ofText (display_ofText s),
    ofText_display_ofValue, fun n h => ?_⟩
  obtain rfl := ofText_eq_int_iff.1 h
  exact ⟨Value.paramType_write n, Value.integer?_write n⟩

/-- The least integer, and the same with a needless zero. -/
theorem ofText_canonical_least :
    let s := "-9223372036854775808"
    let t := "-09223372036854775808"
    let row (cell : String) : Row := ⟨["id"], [.text cell]⟩
    (row s).get? "id" = some (.text s) ∧ (row t).get? "id" = some (.text t) ∧
      (row s).mapKey "id" ≠ (row t).mapKey "id" ∧ ofText s = int Int64.minValue ∧
      (Value.text s).paramType = .integer ∧ (Value.text s).integer? = some Int64.minValue := by
  intro s t row
  obtain ⟨hint, -, -, hrows, -, -, hviews⟩ := ofText_canonical s
  have hs : ofText s = int Int64.minValue := (hint Int64.minValue).2 (by decide +kernel)
  have hkeys := hrows t "id" (row s) (row t) rfl rfl
  exact ⟨rfl, rfl, fun h => absurd (hkeys.1 h) (by decide), hs, hviews Int64.minValue hs⟩

end MapKey

end SqlStatement
