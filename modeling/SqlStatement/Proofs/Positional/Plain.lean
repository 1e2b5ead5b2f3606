import SqlStatement.Proofs.Entries
import SqlStatement.Proofs.Positional.Reading

/-!
# Drafts of plain texts

A draft is plain when the caller has put no quote, no backslash, no question mark and no colon into
its texts, apart from the colons between the parts of a condition key. Operators are upper-cased when
a draft is compiled, so they are to be ASCII, and a key that brings its own connective is left out.

* `PlainKey`, `Condition.Plain`, `Criteria.Plain`, `Draft.Plain` : plain parts of a draft.
-/

namespace SqlStatement

/-! ## Texts made of plain texts -/

theorem PlainText.of_subset {s t : String} (hs : PlainText s)
    (h : ∀ c ∈ t.toList, c ∈ s.toList) : PlainText t :=
  fun c hc => hs c (h c hc)

theorem mem_of_mem_strip {p : Char → Bool} {s : String} {c : Char}
    (hc : c ∈ (Text.strip p s).toList) : c ∈ s.toList := by
  rw [Text.toList_strip] at hc
  exact (Text.trimWhile_infix s.toList).subset hc

theorem PlainText.trim {s : String} (hs : PlainText s) : PlainText (Text.trim s) :=
  hs.of_subset fun _ => mem_of_mem_strip

/-- A part between separators consists of characters of the text, none of them a separator. -/
theorem mem_of_mem_splitOn {sep c : Char} {cs part : List Char} (hpart : part ∈ cs.splitOn sep)
    (hc : c ∈ part) : c ∈ cs ∧ c ≠ sep := by
  induction cs generalizing part with
  | nil =>
    rw [List.splitOn_nil, List.mem_singleton] at hpart
    rw [hpart] at hc
    cases hc
  | cons b cs ih =>
    have htail : ∀ part ∈ cs.splitOn sep, c ∈ part → c ∈ b :: cs ∧ c ≠ sep := by
      intro part hpart hc
      obtain ⟨hmem, hne⟩ := ih hpart hc
      exact ⟨List.mem_cons_of_mem b hmem, hne⟩
    rw [List.splitOn_cons_eq_if_modifyHead] at hpart
    by_cases hb : b = sep
    · rw [if_pos (by simpa using hb)] at hpart
      rcases List.mem_cons.1 hpart with rfl | hpart
      · cases hc
      · exact htail part hpart hc
    · rw [if_neg (by simpa using hb)] at hpart
      rcases hparts : cs.splitOn sep with _ | ⟨first, rest⟩
      · rw [hparts] at hpart
        cases hpart
      · rw [hparts] at hpart htail
        rcases List.mem_cons.1 hpart with rfl | hpart
        · rcases List.mem_cons.1 hc with rfl | hc
          · exact ⟨List.mem_cons_self, hb⟩
          · exact htail first List.mem_cons_self hc
        · exact htail part (List.mem_cons_of_mem first hpart) hc

theorem mem_of_mem_split {sep c : Char} {s part : String} (hpart : part ∈ Text.split sep s)
    (hc : c ∈ part.toList) : c ∈ s.toList ∧ c ≠ sep := by
  obtain ⟨cs, hcs, rfl⟩ := List.mem_map.1 hpart
  rw [String.toList_ofList] at hc
  exact mem_of_mem_splitOn hcs hc

theorem plainText_of_cut {sep : Char} {s a b : String} (hs : PlainText s)
    (h : Text.cut? sep s = some (a, b)) : PlainText a ∧ PlainText b := by
  obtain ⟨rfl, -⟩ := Text.cut?_eq_some_iff.1 h
  rw [plainText_append, plainText_append] at hs
  exact ⟨hs.1.1, hs.2⟩

theorem plainText_intercalate {sep : String} (hsep : PlainText sep) {ss : List String}
    (h : ∀ s ∈ ss, PlainText s) : PlainText (sep.intercalate ss) := by
  induction ss with
  | nil => exact fun c hc => absurd hc List.not_mem_nil
  | cons s ss ih =>
    have hs := h s List.mem_cons_self
    have hss := ih fun t ht => h t (List.mem_cons_of_mem s ht)
    rcases ss with _ | ⟨t, ts⟩
    · rw [String.intercalate_singleton]
      exact hs
    · rw [String.intercalate_cons_of_ne_nil (List.cons_ne_nil t ts)]
      exact plainText_append.2 ⟨plainText_append.2 ⟨hs, hsep⟩, hss⟩

/-! ## Upper case -/

def Ascii (s : String) : Prop := ∀ c ∈ s.toList, c.toNat < 128

instance : DecidablePred Ascii := fun s => List.decidableBAll (fun c : Char => c.toNat < 128) s.toList

theorem isPlain_toUpper {c : Char} (ha : c.toNat < 128) (hc : isPlain c = true) :
    isPlain c.toUpper = true := by
  have hall : ∀ n < 128, isPlain (Char.ofNat n) = true → isPlain (Char.ofNat n).toUpper = true := by
    decide
  have hofNat := hall c.toNat ha
  rw [Char.ofNat_toNat] at hofNat
  exact hofNat hc

theorem PlainText.upper {s : String} (hs : PlainText s) (ha : Ascii s) :
    PlainText (Text.upper s) := by
  intro c hc
  unfold Text.upper at hc
  rw [String.toList_ofList] at hc
  obtain ⟨b, hb, hc⟩ := List.mem_flatMap.1 hc
  rw [Text.upperChar_of_ascii (ha b hb), List.mem_singleton] at hc
  rw [hc]
  exact isPlain_toUpper (ha b hb) (hs b hb)

/-! ## Integers -/

theorem isPlain_of_isDigit {c : Char} (hc : c.isDigit = true) : isPlain c = true := by
  have hne : ∀ b : Char, b.isDigit = false → c ≠ b := by
    rintro b hb rfl
    rw [hb] at hc
    cases hc
  simp [isPlain, isQuoteMark, hne]

theorem plainText_natural (n : Nat) : PlainText (toString n) :=
  fun _ hc => isPlain_of_isDigit (Text.isDigit_of_mem_toString hc)

theorem plainText_write (n : Int64) : PlainText (Integer.write n) := by
  unfold Integer.write
  rcases n.toInt with m | m
  · exact plainText_natural m
  · have hminus : PlainText "-" := by decide
    exact plainText_append.2 ⟨hminus, plainText_natural (m + 1)⟩

/-! ## Plain drafts -/

/-- A condition key with plain parts and an ASCII operator that brings no connective of its own. -/
structure PlainKey (key : String) : Prop where
  plain : ∀ c ∈ key.toList, isPlain c = true ∨ c = ':'
  ascii : ∀ op, (Text.split ':' key)[1]? = some op → Ascii op
  joined : Text.occurs " OR " key = false

instance : DecidablePred PlainKey := fun key =>
  have := List.decidableBAll (fun c => isPlain c = true ∨ c = ':') key.toList
  decidable_of_iff
    ((∀ c ∈ key.toList, isPlain c = true ∨ c = ':') ∧
      (∀ op ∈ (Text.split ':' key)[1]?, Ascii op) ∧ Text.occurs " OR " key = false)
    ⟨fun ⟨plain, ascii, joined⟩ => ⟨plain, ascii, joined⟩,
      fun h => ⟨h.plain, h.ascii, h.joined⟩⟩

def Term.Plain : Term → Prop
  | field key _ => PlainKey key
  | raw sql => PlainText sql
  | openGroup => True
  | closeGroup => True

instance : DecidablePred Term.Plain
  | .field key _ => inferInstanceAs (Decidable (PlainKey key))
  | .raw sql => inferInstanceAs (Decidable (PlainText sql))
  | .openGroup => isTrue trivial
  | .closeGroup => isTrue trivial

def Condition.Plain : Condition → Prop
  | raw sql => PlainText sql
  | structured cs => ∀ t ∈ cs.terms, t.Plain

instance : DecidablePred Condition.Plain
  | .raw sql => inferInstanceAs (Decidable (PlainText sql))
  | .structured cs => List.decidableBAll Term.Plain cs.terms

def SortOrder.Plain : SortOrder → Prop
  | raw sql => PlainText sql
  | columns cs => ∀ e ∈ cs, PlainText e.1 ∧ PlainText e.2

def Limit.Plain : Limit → Prop
  | count _ => True
  | page _ _ => True
  | raw sql => PlainText sql

def Assignment.Plain : Assignment → Prop
  | column name _ => PlainText name
  | expr (.text e) => PlainText e
  | expr _ => True

/-- Texts and conditions of the caller are plain; bound names and values may be anything. -/
structure Criteria.Plain (c : Criteria) : Prop where
  filter : ∀ w, c.filter = some w → w.Plain
  group : ∀ g, c.group = some g → PlainText g
  having : ∀ w, c.having = some w → w.Plain
  sort : ∀ s, c.sort = some s → s.Plain
  limit : ∀ l, c.limit = some l → l.Plain

structure Draft.Plain (d : Draft) : Prop where
  table : ∀ t, d.table = some t → PlainText t
  columns : ∀ c ∈ d.columns, PlainText c
  forceIndex : ∀ i, d.forceIndex = some i → PlainText i
  joins : ∀ j ∈ d.joins, PlainText j.kind ∧ PlainText j.table ∧ j.condition.Plain
  values : ∀ a ∈ d.values.entries, a.Plain
  criteria : d.criteria.Plain

/-! ## Setters that change what they are given -/

/-- Joining conditions adds words and brackets. -/
theorem Condition.Plain.and {a b : Condition} (ha : a.Plain) (hb : b.Plain) : (a.and b).Plain := by
  unfold Condition.and
  by_cases hbe : b.isEmpty = true
  · rw [if_pos hbe]
    exact ha
  by_cases hae : a.isEmpty = true
  · rw [if_neg hbe, if_pos hae]
    exact hb
  rw [if_neg hbe, if_neg hae]
  rcases a with s | cs
  · rcases b with t | ds
    · have hopen : PlainText " AND (" := by decide
      have hclose : PlainText ")" := by decide
      exact plainText_append.2 ⟨plainText_append.2 ⟨plainText_append.2 ⟨ha, hopen⟩, hb⟩, hclose⟩
    · intro t ht
      rcases Entries.mem_merge ht with ht | ht
      · have hraw : t ∈ Entries.ofList [Term.raw s] := ht
        rw [List.mem_singleton.1 (Entries.mem_ofList hraw)]
        exact ha
      · exact hb t ht
  · rcases b with t | ds
    · intro u hu
      have hinsert : u ∈ Entries.insert cs.terms (.raw t) := hu
      rcases Entries.mem_insert hinsert with rfl | hu
      · exact hb
      · exact ha u hu
    · intro t ht
      rcases Entries.mem_merge ht with ht | ht
      · exact ha t ht
      · exact hb t ht

theorem Criteria.Plain.andWhere {c : Criteria} (hc : c.Plain) {w : Condition} (hw : w.Plain) :
    (c.andWhere w).Plain := by
  refine ⟨?_, hc.group, hc.having, hc.sort, hc.limit⟩
  rintro _ ⟨⟩
  rcases hf : c.filter with _ | existing
  · exact hw
  · exact (hc.filter existing hf).and hw

def TableName.Plain : TableName → Prop
  | plain name => PlainText name
  | aliased name label => PlainText name ∧ PlainText label

theorem TableName.Plain.text {t : TableName} (ht : t.Plain) : PlainText t.text := by
  rcases t with name | ⟨name, label⟩
  · exact PlainText.trim ht
  · have hname := PlainText.trim ht.1
    have hspace : PlainText " " := by decide
    by_cases hshort : Text.trim label = "" ∨ Text.hasChar ' ' (Text.trim name) = true
    · rw [TableName.text, if_pos hshort]
      exact hname
    · rw [TableName.text, if_neg hshort]
      exact plainText_append.2 ⟨plainText_append.2 ⟨hname, hspace⟩, ht.2.trim⟩

namespace Draft.Plain

variable {d : Draft}

theorem empty : Draft.Plain {} where
  table := by simp
  columns := by simp
  forceIndex := by simp
  joins := by simp
  values := by simp
  criteria := ⟨by simp, by simp, by simp, by simp, by simp⟩

theorem setTable (hd : d.Plain) {t : TableName} (ht : t.Plain) : (d.setTable t).Plain where
  __ := hd
  table := by
    rintro _ ⟨⟩
    exact ht.text

/-- The kind of a join is written in upper case, which keeps ASCII texts plain. -/
theorem join (hd : d.Plain) {kind : String} (hkind : PlainText kind) (hascii : Ascii kind)
    {t : TableName} (ht : t.Plain) {w : Condition} (hw : w.Plain) : (d.join kind t w).Plain where
  __ := hd
  joins := by
    intro j hj
    rcases List.mem_append.1 hj with hj | hj
    · exact hd.joins j hj
    · rw [List.mem_singleton.1 hj]
      exact ⟨hkind.trim.upper fun c hc => hascii c (mem_of_mem_strip hc), ht.text, hw⟩

theorem withCriteria (hd : d.Plain) (f : Criteria → Criteria) (hf : (f d.criteria).Plain) :
    (d.withCriteria f).Plain where
  __ := hd
  criteria := hf

end Draft.Plain

end SqlStatement
