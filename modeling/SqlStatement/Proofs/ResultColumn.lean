import SqlStatement.Proofs.Builder.SelectMap
import SqlStatement.Proofs.ResultColumn.LastAlias

/-!
# Result columns of names

A name may have qualifiers before it, and each part of it may stand in backticks. Its result column
is the last part. A point before this part makes its backticks go; a name without qualifiers keeps
them.

* `QualifiedName.column` : the result column of a name;
* `Draft.selectMap_names` : what selecting by names registers.
-/

namespace SqlStatement

/-! ## Expressions without blank spaces and brackets -/

/-- The character after the keyword would be a blank space or a bracket. -/
theorem startsDistinct_eq_false {cs : List Char} (hspace : ' ' ∉ cs) (hbracket : '(' ∉ cs) :
    startsDistinct cs = false := by
  have hhead : ∀ d : Char, d.toNat < 65 → d ∉ cs → d ∉ (cs.take 9).map Char.toLower := by
    intro d hd hcs hmem
    obtain ⟨c, hc, hlower⟩ := List.mem_map.1 hmem
    rw [← Text.eq_of_toLower_eq hd hlower] at hcs
    exact hcs (List.mem_of_mem_take hc)
  unfold startsDistinct
  rw [Bool.or_eq_false_iff, beq_eq_false_iff_ne, beq_eq_false_iff_ne]
  refine ⟨fun h => hhead ' ' (by decide) hspace ?_, fun h => hhead '(' (by decide) hbracket ?_⟩
  · rw [h]
    decide
  · rw [h]
    decide

theorem isPathChar_cases {c : Char} (h : isPathChar c = true) : c = '.' ∨ c = '_' ∨ c = '\x60' ∨
    (65 ≤ c.toNat ∧ c.toNat ≤ 90) ∨ (97 ≤ c.toNat ∧ c.toNat ≤ 122) ∨
      (48 ≤ c.toNat ∧ c.toNat ≤ 57) := by
  unfold isPathChar Char.isAlphanum Char.isAlpha Char.isUpper Char.isLower Char.isDigit at h
  simp only [Bool.or_eq_true, beq_iff_eq, Bool.and_eq_true, decide_eq_true_eq,
    UInt32.le_iff_toNat_le, ge_iff_le, or_assoc] at h
  exact h

theorem isBlank_of_isPathChar {c : Char} (h : isPathChar c = true) : Text.isBlank c = false := by
  refine Text.isBlank_of_visible ?_
  obtain rfl | rfl | rfl | hrange := isPathChar_cases h
  · decide
  · decide
  · decide
  · omega

theorem resultColumn_path {s : String} (h : ∀ c ∈ s.toList, isPathChar c = true) :
    resultColumn s = String.ofList (unqualified s.toList) := by
  have hnot : ∀ c, isPathChar c = false → c ∉ s.toList := fun c hc hmem => by
    rw [h c hmem] at hc
    cases hc
  have htrim : Text.trimWhile Text.isBlank s.toList = s.toList :=
    Text.trimWhile_eq_self_iff.2 (Text.trimmed_of_forall fun c hc => isBlank_of_isPathChar (h c hc))
  rw [resultColumn_of_unaliased htrim (lastAlias?_eq_none (hnot ' ' (by decide)) 0), withoutDistinct,
    startsDistinct_eq_false (hnot ' ' (by decide)) (hnot '(' (by decide))]
  rfl

/-! ## Names -/

/-- Whether the character may stand in a part of a name: an ASCII letter or digit, underscore. -/
def isNameChar (c : Char) : Bool := c == '_' || c.isAlphanum

/-- A part of a name. -/
structure Identifier where
  name : String
  /-- whether it stands in backticks -/
  quoted : Bool
  nonempty : name ≠ ""
  chars : ∀ c ∈ name.toList, isNameChar c = true

namespace Identifier

/-- The part as it is written. -/
def text (i : Identifier) : String := if i.quoted then "\x60" ++ i.name ++ "\x60" else i.name

def bare (i : Identifier) : Identifier := { i with quoted := false }

variable {i : Identifier} {c : Char}

theorem text_of_quoted (h : i.quoted = true) : i.text = "\x60" ++ i.name ++ "\x60" := if_pos h

theorem text_of_not_quoted (h : i.quoted = false) : i.text = i.name :=
  if_neg (Bool.eq_false_iff.1 h)

theorem mem_text (h : c ∈ i.text.toList) : c = '\x60' ∨ isNameChar c = true := by
  rcases hq : i.quoted with _ | _
  · rw [text_of_not_quoted hq] at h
    exact Or.inr (i.chars c h)
  · rw [text_of_quoted hq] at h
    have hmem : c = '\x60' ∨ c ∈ i.name.toList := by simpa [or_comm] using h
    exact hmem.imp_right (i.chars c)

theorem point_notMem_text (i : Identifier) : '.' ∉ i.text.toList := by
  intro h
  obtain h | h := mem_text h
  · exact absurd h (by decide)
  · exact absurd h (by decide)

theorem isPathChar_of_mem (h : c ∈ i.text.toList) : isPathChar c = true := by
  obtain rfl | hname := mem_text h
  · decide
  · unfold isNameChar at hname
    unfold isPathChar
    rw [Bool.or_eq_true] at hname
    simpa [or_assoc] using Or.inr (hname.imp_right Or.inr)

/-- Trimming takes the backticks away. -/
theorem trimWhile_text (i : Identifier) :
    Text.trimWhile isNameEdge i.text.toList = i.name.toList := by
  have htrimmed : Text.Trimmed isNameEdge i.name.toList := by
    refine Text.trimmed_of_forall fun c hc => Bool.eq_false_iff.2 fun hedge => ?_
    have hcases : c = '\x60' ∨ c = ' ' := by simpa [isNameEdge] using hedge
    obtain rfl | rfl := hcases
    · exact absurd (i.chars _ hc) (by decide)
    · exact absurd (i.chars _ hc) (by decide)
  rcases hq : i.quoted with _ | _
  · rw [text_of_not_quoted hq, Text.trimWhile_eq_self_iff.2 htrimmed]
  · rw [text_of_quoted hq, Text.trimWhile_eq_iff]
    exact ⟨htrimmed, ['\x60'], ['\x60'], by simp [isNameEdge], by simp [isNameEdge], by simp⟩

theorem text_ne_name (h : i.quoted = true) : i.text ≠ i.name := by
  intro heq
  have hlength := congrArg (·.toList.length) heq
  simp [text_of_quoted h] at hlength
  omega

end Identifier

structure QualifiedName where
  qualifiers : List Identifier
  last : Identifier

namespace QualifiedName

def text (q : QualifiedName) : String :=
  ".".intercalate ((q.qualifiers ++ [q.last]).map Identifier.text)

def bare (q : QualifiedName) : QualifiedName := ⟨q.qualifiers.map Identifier.bare, q.last.bare⟩

/-- The name has no qualifiers and stands in backticks. -/
def LoneQuoted (q : QualifiedName) : Prop := q.qualifiers = [] ∧ q.last.quoted = true

instance (q : QualifiedName) : Decidable q.LoneQuoted := inferInstanceAs (Decidable (_ ∧ _))

def column (q : QualifiedName) : String := if q.LoneQuoted then q.last.text else q.last.name

theorem text_nil (last : Identifier) : text ⟨[], last⟩ = last.text := String.intercalate_singleton

theorem text_cons (i : Identifier) (is : List Identifier) (last : Identifier) :
    text ⟨i :: is, last⟩ = i.text ++ "." ++ text ⟨is, last⟩ := by
  unfold text
  rw [List.cons_append, List.map_cons, String.intercalate_cons_of_ne_nil (by simp)]

theorem isPathChar_of_mem_text (q : QualifiedName) {c : Char} (hc : c ∈ q.text.toList) :
    isPathChar c = true := by
  obtain ⟨is, last⟩ := q
  induction is with
  | nil =>
    rw [text_nil] at hc
    exact Identifier.isPathChar_of_mem hc
  | cons i is ih =>
    rw [text_cons] at hc
    have hmem : c ∈ i.text.toList ∨ c = '.' ∨ c ∈ (text ⟨is, last⟩).toList := by simpa using hc
    obtain hi | rfl | his := hmem
    · exact Identifier.isPathChar_of_mem hi
    · decide
    · exact ih his

theorem toList_text (last : Identifier) : ∀ {is : List Identifier}, is ≠ [] →
    ∃ before, (text ⟨is, last⟩).toList = before ++ '.' :: last.text.toList
  | [i], _ => ⟨i.text.toList, by simp [text_cons, text_nil]⟩
  | i :: j :: is, _ => by
    obtain ⟨before, hbefore⟩ := toList_text last (List.cons_ne_nil j is)
    refine ⟨i.text.toList ++ '.' :: before, ?_⟩
    rw [text_cons]
    simp [hbefore]

theorem resultColumn_text (q : QualifiedName) : resultColumn q.text = q.column := by
  have hall : q.text.toList.all isPathChar = true :=
    List.all_eq_true.2 fun c hc => q.isPathChar_of_mem_text hc
  rw [resultColumn_path fun c hc => q.isPathChar_of_mem_text hc]
  unfold unqualified
  rw [if_pos hall]
  obtain ⟨is, last⟩ := q
  by_cases his : is = []
  · subst his
    rw [text_nil, Text.afterLastIn?_eq_none last.point_notMem_text]
    dsimp only
    rw [String.ofList_toList]
    by_cases hq : last.quoted = true
    · exact (if_pos ⟨rfl, hq⟩).symm
    · rw [Identifier.text_of_not_quoted (Bool.eq_false_iff.2 hq)]
      exact (if_neg fun h => hq h.2).symm
  · obtain ⟨before, hbefore⟩ := toList_text last his
    rw [hbefore, Text.afterLastIn?_append last.point_notMem_text]
    dsimp only
    rw [Identifier.trimWhile_text, String.ofList_toList]
    exact (if_neg fun h => his h.1).symm

theorem column_eq_name_iff {q : QualifiedName} : q.column = q.last.name ↔ ¬ q.LoneQuoted := by
  unfold column
  split_ifs with h
  · simpa [h] using Identifier.text_ne_name h.2
  · simp [h]

theorem column_bare (q : QualifiedName) : q.bare.column = q.last.name :=
  column_eq_name_iff.2 fun h => Bool.false_ne_true h.2

end QualifiedName

/-! ## Maps -/

namespace QualifiedName

def key (q : QualifiedName) (asList : Bool) : String := if asList then q.text ++ "[]" else q.text

theorem splitListMark_key (q : QualifiedName) (asList : Bool) :
    splitListMark (q.key asList) = (q.text, asList) := by
  have hblank : ∀ c ∈ q.text.toList, Text.isBlank c = false :=
    fun c hc => isBlank_of_isPathChar (q.isPathChar_of_mem_text hc)
  have htrimmed := Text.trimmed_of_forall hblank
  unfold splitListMark key
  rcases asList with _ | _
  · have hnone : Text.dropSuffix? "[]" q.text = none := by
      rw [Option.eq_none_iff_forall_ne_some]
      intro t ht
      have hmem : ']' ∈ q.text.toList := by simp [Text.dropSuffix?_eq_some_iff.1 ht]
      exact absurd (q.isPathChar_of_mem_text hmem) (by decide)
    rw [if_neg Bool.false_ne_true, Text.trim_eq_self_iff.2 htrimmed, hnone]
  · have hmarked : ∀ c ∈ (q.text ++ "[]").toList, Text.isBlank c = false := by
      intro c hc
      have hmem : c ∈ q.text.toList ∨ c = '[' ∨ c = ']' := by simpa using hc
      obtain h | rfl | rfl := hmem
      · exact hblank c h
      · decide
      · decide
    rw [if_pos rfl, Text.trim_eq_self_iff.2 (Text.trimmed_of_forall hmarked),
      Text.dropSuffix?_eq_some_iff.2 rfl]
    dsimp only
    rw [Text.trimEnd_eq_self htrimmed]

end QualifiedName

/-- The fields of a map, by their names. -/
inductive NamedFields where
  | single (field : QualifiedName)
  | many (fields : List QualifiedName)
  | all

namespace NamedFields

def toFields (f : QualifiedName → String) : NamedFields → MapFields
  | single field => .single (f field)
  | many fields => .many (fields.map f)
  | all => .all

def names : NamedFields → List QualifiedName
  | single field => [field]
  | many fields => fields
  | all => []

theorem toFields_inj {f g : QualifiedName → String} {fields : NamedFields} :
    fields.toFields f = fields.toFields g ↔ ∀ q ∈ fields.names, f q = g q := by
  cases fields with
  | single field => simp [toFields, names]
  | many fields => simp [toFields, names]
  | all => simp [toFields, names]

theorem resultFields_toFields (f : QualifiedName → String) (fields : NamedFields) :
    Draft.resultFields (fields.toFields f) = fields.toFields fun q => resultColumn (f q) := by
  cases fields with
  | single field => rfl
  | many fields => exact congrArg MapFields.many List.map_map
  | all => rfl

end NamedFields

namespace Draft

theorem mapOption_selectMap_key (d : Draft) (key : QualifiedName) (asList : Bool)
    (fields : MapFields) : (d.selectMap (key.key asList) fields).mapOption =
      some ⟨key.column, asList, resultFields fields⟩ := by
  rw [mapOption_selectMap, key.splitListMark_key, key.resultColumn_text]

/-- The result column of a name is its last part, except that a name in backticks without
qualifiers keeps them. What a selection for a map registers is the same for the names with and
without backticks exactly if there is no such name among them. -/
theorem selectMap_names (d : Draft) (key : QualifiedName) (asList : Bool) (fields : NamedFields) :
    let option (written : QualifiedName → QualifiedName) :=
      (d.selectMap ((written key).key asList)
        (fields.toFields fun q => (written q).text)).mapOption
    (∀ q : QualifiedName, (resultColumn q.text = q.last.name ↔ ¬ q.LoneQuoted) ∧
        (q.LoneQuoted → resultColumn q.text = q.text)) ∧
      option id = some ⟨key.column, asList, fields.toFields QualifiedName.column⟩ ∧
      (option id = option QualifiedName.bare ↔ ∀ q ∈ key :: fields.names, ¬ q.LoneQuoted) := by
  intro option
  have hquoted : option id = some ⟨key.column, asList, fields.toFields QualifiedName.column⟩ := by
    show (d.selectMap (key.key asList) (fields.toFields QualifiedName.text)).mapOption = _
    rw [mapOption_selectMap_key, NamedFields.resultFields_toFields]
    simp only [QualifiedName.resultColumn_text]
  have hbare : option QualifiedName.bare =
      some ⟨key.last.name, asList, fields.toFields fun q => q.last.name⟩ := by
    show (d.selectMap (key.bare.key asList) (fields.toFields fun q => q.bare.text)).mapOption = _
    rw [mapOption_selectMap_key, NamedFields.resultFields_toFields, QualifiedName.column_bare]
    simp only [QualifiedName.resultColumn_text, QualifiedName.column_bare]
  refine ⟨fun q => ⟨?_, ?_⟩, hquoted, ?_⟩
  · rw [q.resultColumn_text, QualifiedName.column_eq_name_iff]
  · rintro ⟨hnone, hlast⟩
    obtain ⟨is, last⟩ := q
    subst hnone
    rw [QualifiedName.resultColumn_text, QualifiedName.text_nil]
    exact if_pos ⟨rfl, hlast⟩
  · rw [hquoted, hbare, Option.some.injEq, MapOption.mk.injEq, NamedFields.toFields_inj,
      List.forall_mem_cons, QualifiedName.column_eq_name_iff]
    simp only [QualifiedName.column_eq_name_iff, true_and]

end Draft

def quotedId : QualifiedName := ⟨[], "id", true, by decide, List.all_eq_true.1 (by decide)⟩

/-- Its result column has backticks, where the database gives the column without them. -/
theorem resultColumn_quotedId :
    quotedId.text = "\x60id\x60" ∧ resultColumn quotedId.text ≠ quotedId.last.name ∧
      (Draft.selectMap {} quotedId.text .all).mapOption ≠
        (Draft.selectMap {} quotedId.bare.text .all).mapOption := by
  decide +kernel

end SqlStatement
