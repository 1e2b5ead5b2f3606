import SqlStatement.Proofs.Condition.Terms
import SqlStatement.Proofs.Expression.Reading

/-!
# Comparisons as atoms

Where field, operator and suffix of a key are plain words, its comparison is one atom of an
expression, whatever the values are: the brackets of a list belong to the atom, and so does the
`AND` of a range.

* `Wordy` : texts of words that are neither connectives nor begin a range;
* `Absorbed`, `Phrase` : how an atom goes on, and texts that are an atom.
-/

namespace SqlStatement

/-- A word that is no connective and begins no range. -/
def Lexeme.isPlain : Lexeme → Bool
  | word cs => ["AND", "OR", "BETWEEN"].all fun keyword => !(word cs).isKeyword keyword
  | _ => false

/-- The text consists of such words. -/
def Wordy (s : String) : Prop :=
  ∃ ls ∈ lexing.output? s.toList, ls ≠ [] ∧ ∀ l ∈ ls, l.isPlain = true

instance : DecidablePred Wordy := fun s =>
  inferInstanceAs (Decidable (∃ ls ∈ lexing.output? s.toList, ls ≠ [] ∧ ∀ l ∈ ls, l.isPlain = true))

/-- An atom goes on over the words and brackets, and is complete after them. -/
def Absorbed (ls : List Lexeme) : Prop := ∀ atom rest, atom ≠ [] →
  gathering.run ⟨atom, 0, false⟩ (ls ++ rest) = gathering.run ⟨atom ++ ls, 0, false⟩ rest

/-- The text is one atom. -/
def Phrase (s : String) : Prop :=
  ∃ l ls, lexing.output? s.toList = some (l :: ls) ∧ l.isPlain = true ∧ Absorbed ls

/-! ## Going on with an atom -/

theorem Transducer.run_cons_of_nil {σ α β : Type} {m : Transducer σ α β} {st st' : σ} {x : α}
    (h : m.step st x = ([], st')) (xs : List α) : m.run st (x :: xs) = m.run st' xs := by
  show (m.run (m.step st x).2 xs).map ((m.step st x).1 ++ ·) = _
  rw [h]
  exact Option.map_id'

theorem Absorbed.append {ls ms : List Lexeme} (hl : Absorbed ls) (hm : Absorbed ms) :
    Absorbed (ls ++ ms) := by
  intro atom rest hatom
  rw [List.append_assoc, hl _ _ hatom, hm _ _ (List.append_ne_nil_of_left_ne_nil hatom ls),
    List.append_assoc]

theorem gathering_step_plain {l : Lexeme} (h : l.isPlain = true) (atom : List Lexeme)
    (range : Bool) : gathering.step ⟨atom, 0, range⟩ l = ([], ⟨atom ++ [l], 0, range⟩) := by
  cases l with
  | opening => cases h
  | closing => cases h
  | word cs =>
    have hkeywords : ∀ keyword ∈ ["AND", "OR", "BETWEEN"],
        (Lexeme.word cs).isKeyword keyword = false := fun keyword hk => by
      simpa using List.all_eq_true.1 h keyword hk
    show Gathering.step ⟨atom, 0, range⟩ (.word cs) = _
    unfold Gathering.step
    simp [hkeywords]

theorem gathering_run_plain {ls : List Lexeme} (h : ∀ l ∈ ls, l.isPlain = true)
    (atom : List Lexeme) (range : Bool) (rest : List Lexeme) :
    gathering.run ⟨atom, 0, range⟩ (ls ++ rest) = gathering.run ⟨atom ++ ls, 0, range⟩ rest := by
  induction ls generalizing atom with
  | nil => rw [List.append_nil, List.nil_append]
  | cons l ls ih =>
    rw [List.cons_append, Transducer.run_cons_of_nil
      (gathering_step_plain (h l List.mem_cons_self) atom range),
      ih fun m hm => h m (List.mem_cons_of_mem l hm), List.append_assoc, List.singleton_append]

theorem absorbed_of_plain {ls : List Lexeme} (h : ∀ l ∈ ls, l.isPlain = true) : Absorbed ls :=
  fun atom rest _ => gathering_run_plain h atom false rest

theorem gathering_run_inside {ls : List Lexeme} (h : ∀ l ∈ ls, l.isPlain = true)
    (atom rest : List Lexeme) : gathering.run ⟨atom, 1, false⟩ (ls ++ rest) =
      gathering.run ⟨atom ++ ls, 1, false⟩ rest := by
  induction ls generalizing atom with
  | nil => rw [List.append_nil, List.nil_append]
  | cons l ls ih =>
    have hstep : gathering.step ⟨atom, 1, false⟩ l = ([], ⟨atom ++ [l], 1, false⟩) := by
      have hl := h l List.mem_cons_self
      cases l with
      | word cs => rfl
      | opening => cases hl
      | closing => cases hl
    rw [List.cons_append, Transducer.run_cons_of_nil hstep,
      ih fun m hm => h m (List.mem_cons_of_mem l hm), List.append_assoc, List.singleton_append]

theorem absorbed_brackets {ls : List Lexeme} (h : ∀ l ∈ ls, l.isPlain = true) :
    Absorbed (.opening :: (ls ++ [.closing])) := by
  intro atom rest hatom
  have hopening : gathering.step ⟨atom, 0, false⟩ .opening = ([], ⟨atom ++ [.opening], 1, false⟩) :=
    if_neg hatom
  have hclosing : gathering.step ⟨atom ++ [.opening] ++ ls, 1, false⟩ .closing =
      ([], ⟨atom ++ [.opening] ++ ls ++ [.closing], 0, false⟩) := rfl
  rw [List.cons_append, Transducer.run_cons_of_nil hopening, List.append_assoc,
    gathering_run_inside h, List.singleton_append, Transducer.run_cons_of_nil hclosing]
  simp only [List.append_assoc, List.cons_append, List.nil_append]

theorem absorbed_range {low high : List Lexeme} (hlow : ∀ l ∈ low, l.isPlain = true)
    (hhigh : ∀ l ∈ high, l.isPlain = true) :
    Absorbed (.word "BETWEEN".toList :: (low ++ .word "AND".toList :: high)) := by
  intro atom rest _
  have hbetween : gathering.step ⟨atom, 0, false⟩ (.word "BETWEEN".toList) =
      ([], ⟨atom ++ [.word "BETWEEN".toList], 0, true⟩) := rfl
  have hand : ∀ atom', gathering.step ⟨atom', 0, true⟩ (.word "AND".toList) =
      ([], ⟨atom' ++ [.word "AND".toList], 0, false⟩) := fun _ => rfl
  rw [List.cons_append, Transducer.run_cons_of_nil hbetween, List.append_assoc,
    gathering_run_plain hlow, List.cons_append, Transducer.run_cons_of_nil (hand _),
    gathering_run_plain hhigh]
  simp only [List.append_assoc, List.cons_append, List.nil_append]

/-! ## Texts -/

variable {s t : String}

theorem lexing_words {ls ms : List Lexeme} (hs : lexing.output? s.toList = some ls)
    (ht : lexing.output? t.toList = some ms) :
    lexing.output? (s ++ (" " ++ t)).toList = some (ls ++ ms) := by
  rw [String.toList_append, String.toList_append]
  exact Transducer.run_append_cons lexing_blank hs ht

theorem Wordy.phrase (h : Wordy s) : Phrase s := by
  obtain ⟨ls, hls, hne, hplain⟩ := h
  obtain ⟨l, ls, rfl⟩ := List.exists_cons_of_ne_nil hne
  exact ⟨l, ls, hls, hplain l List.mem_cons_self,
    absorbed_of_plain fun m hm => hplain m (List.mem_cons_of_mem l hm)⟩

namespace Phrase

theorem append (hs : Phrase s) {ms : List Lexeme} (ht : lexing.output? t.toList = some ms)
    (hms : Absorbed ms) : Phrase (s ++ (" " ++ t)) := by
  obtain ⟨l, ls, hls, hplain, habsorbed⟩ := hs
  exact ⟨l, ls ++ ms, lexing_words hls ht, hplain, habsorbed.append hms⟩

theorem words (hs : Phrase s) (ht : Wordy t) : Phrase (s ++ (" " ++ t)) := by
  obtain ⟨ms, hms, -, hplain⟩ := ht
  exact hs.append hms (absorbed_of_plain hplain)

theorem brackets (hs : Phrase s) (ht : Wordy t) : Phrase (s ++ (" (" ++ (t ++ ")"))) := by
  obtain ⟨ms, hms, -, hplain⟩ := ht
  have hnil : lexing.output? [] = some [] := rfl
  have hclosing : lexing.output? (t ++ ")").toList = some (ms ++ [.closing]) := by
    rw [String.toList_append]
    exact Transducer.run_append_cons lexing_closing hms hnil
  have hopening : lexing.output? ("(" ++ (t ++ ")")).toList =
      some (.opening :: (ms ++ [.closing])) := by
    rw [String.toList_append]
    exact Transducer.run_append_cons lexing_opening hnil hclosing
  have hblank : " (" = " " ++ "(" := rfl
  rw [hblank, String.append_assoc]
  exact hs.append hopening (absorbed_brackets hplain)

theorem range (hs : Phrase s) {low high : String} (hlow : Wordy low) (hhigh : Wordy high) :
    Phrase (s ++ (" BETWEEN " ++ (low ++ (" AND " ++ high)))) := by
  obtain ⟨ls, hls, -, hls'⟩ := hlow
  obtain ⟨ms, hms, -, hms'⟩ := hhigh
  have hand : lexing.output? "AND".toList = some [.word "AND".toList] := rfl
  have hbetween : lexing.output? "BETWEEN".toList = some [.word "BETWEEN".toList] := rfl
  have hrange := lexing_words hbetween (lexing_words hls (lexing_words hand hms))
  have hbetween' : " BETWEEN " = " " ++ ("BETWEEN" ++ " ") := rfl
  have hand' : " AND " = " " ++ ("AND" ++ " ") := rfl
  rw [hbetween', hand']
  simp only [String.append_assoc]
  exact hs.append hrange (absorbed_range hls' hms')

theorem reads (h : Phrase s) : ∃ e, Reads s e := by
  obtain ⟨l, ls, hls, hplain, habsorbed⟩ := h
  refine ⟨.conjunction (.primary (.atom (l :: ls))), ?_⟩
  unfold Reads symbols?
  rw [hls, Option.bind_some]
  show gathering.run ⟨[], 0, false⟩ (l :: ls) = _
  rw [Transducer.run_cons_of_nil (gathering_step_plain hplain [] false)]
  have hrun := habsorbed ([] ++ [l]) [] (List.cons_ne_nil _ _)
  rw [List.append_nil] at hrun
  exact hrun

end Phrase

/-! ## Words -/

/-- A character that neither ends a word nor begins a quote. -/
def isWordCharacter (c : Char) : Bool :=
  !c.isWhitespace && c != '(' && c != ')' && !isQuoteMark c

theorem lexing_run_word {cs : List Char} (h : ∀ c ∈ cs, isWordCharacter c = true)
    (word : List Char) :
    lexing.run ⟨.outside, word⟩ cs = some (Lexing.given ⟨.outside, word ++ cs⟩) := by
  induction cs generalizing word with
  | nil =>
    rw [List.append_nil]
    rfl
  | cons c cs ih =>
    have hc := h c List.mem_cons_self
    have hstep : lexing.step ⟨.outside, word⟩ c = ([], ⟨.outside, word ++ [c]⟩) := by
      show Lexing.step ⟨.outside, word⟩ c = _
      unfold Lexing.step
      simp only [isWordCharacter, Bool.and_eq_true, Bool.not_eq_true', bne_iff_ne] at hc
      simp [hc]
    rw [Transducer.run_cons_of_nil hstep, ih fun d hd => h d (List.mem_cons_of_mem c hd),
      List.append_assoc, List.singleton_append]

/-- The text is a colon and characters of a word. -/
def ColonName (s : String) : Prop :=
  ∃ cs, s.toList = ':' :: cs ∧ ∀ c ∈ cs, isWordCharacter c = true

theorem ColonName.wordy (h : ColonName s) : Wordy s := by
  obtain ⟨cs, hs, hcs⟩ := h
  refine ⟨[.word (':' :: cs)], ?_, List.cons_ne_nil _ _, ?_⟩
  · rw [hs]
    exact lexing_run_word (List.forall_mem_cons.2 ⟨by decide, hcs⟩) []
  · simp [Lexeme.isPlain, Lexeme.isKeyword]

theorem ColonName.append (hs : ColonName s) (ht : ColonName t) : ColonName (s ++ "," ++ t) := by
  obtain ⟨cs, hs, hcs⟩ := hs
  obtain ⟨ds, ht, hds⟩ := ht
  refine ⟨cs ++ ',' :: ':' :: ds, ?_, ?_⟩
  · rw [String.toList_append, String.toList_append, hs, ht]
    simp
  · exact List.forall_mem_append.2 ⟨hcs, List.forall_mem_cons.2 ⟨by decide,
      List.forall_mem_cons.2 ⟨by decide, hds⟩⟩⟩

theorem isWordCharacter_of_isDigit {c : Char} (h : c.isDigit = true) :
    isWordCharacter c = true := by
  have hne : ∀ d : Char, d.isDigit = false → c ≠ d := by
    rintro d hd rfl
    rw [hd] at h
    cases h
  simp [isWordCharacter, isQuoteMark, Char.isWhitespace, hne]

theorem colonName_placeholder (n : Nat) : ColonName (Placement.placeholder n) :=
  ⟨'d' :: 'y' :: (toString n).toList, toList_placeholder n, List.forall_mem_cons.2 ⟨by decide,
    List.forall_mem_cons.2 ⟨by decide, fun _ hc =>
      isWordCharacter_of_isDigit (Text.isDigit_of_mem_toString hc)⟩⟩⟩

theorem colonName_intercalate {names : List String} (hne : names ≠ [])
    (h : ∀ name ∈ names, ColonName name) : ColonName (",".intercalate names) := by
  induction names with
  | nil => exact absurd rfl hne
  | cons name names ih =>
    have hname := h name List.mem_cons_self
    have hnames := fun m hm => h m (List.mem_cons_of_mem name hm)
    rcases names with _ | ⟨next, rest⟩
    · rw [String.intercalate_singleton]
      exact hname
    · rw [String.intercalate_cons_of_ne_nil (List.cons_ne_nil next rest)]
      exact hname.append (ih (List.cons_ne_nil next rest) hnames)

theorem colonName_placeAll (p : Placement) (vs : List Value) :
    ∀ name ∈ (p.placeAll vs).1, ColonName name := by
  induction vs generalizing p with
  | nil => exact fun name hname => absurd hname List.not_mem_nil
  | cons v vs ih =>
    rw [Placement.placeAll_cons]
    exact List.forall_mem_cons.2 ⟨colonName_placeholder p.free, ih (p.place v).2⟩

theorem lexing_run_quoted {cs : List Char} (h : '\x60' ∉ cs) (word rest : List Char) :
    lexing.run ⟨.inside '\x60', word⟩ (cs ++ rest) =
      lexing.run ⟨.inside '\x60', word ++ cs⟩ rest := by
  induction cs generalizing word with
  | nil => rw [List.append_nil, List.nil_append]
  | cons c cs ih =>
    obtain ⟨hc, hcs⟩ := not_or.1 (mt List.mem_cons.2 h)
    have hnext : Quoting.next (.inside '\x60') c = .inside '\x60' := by
      simp [Quoting.next, Ne.symm hc]
    have hstep : lexing.step ⟨.inside '\x60', word⟩ c = ([], ⟨.inside '\x60', word ++ [c]⟩) := by
      show Lexing.step ⟨.inside '\x60', word⟩ c = _
      unfold Lexing.step
      simp [hnext]
    rw [List.cons_append, Transducer.run_cons_of_nil hstep, ih hcs, List.append_assoc,
      List.singleton_append]

theorem wordy_quoteField {field : String} (hquote : Text.hasChar '\x60' field = false)
    (hpoint : Text.hasChar '.' field = false) : Wordy (quoteField field) := by
  have hfield : '\x60' ∉ field.toList := by
    simpa [Text.hasChar] using hquote
  refine ⟨[.word ('\x60' :: (field.toList ++ ['\x60']))], ?_, List.cons_ne_nil _ _, ?_⟩
  · have hbackticks : quoteField field = "\x60" ++ field ++ "\x60" := by
      unfold quoteField
      rw [hquote, hpoint]
      rfl
    rw [hbackticks, String.toList_append, String.toList_append]
    have hopen : lexing.step {} '\x60' = ([], ⟨.inside '\x60', ['\x60']⟩) := rfl
    show lexing.run {} ('\x60' :: (field.toList ++ ['\x60'])) = _
    rw [Transducer.run_cons_of_nil hopen, lexing_run_quoted hfield]
    rfl
  · simp [Lexeme.isPlain, Lexeme.isKeyword]

/-! ## Comparisons -/

theorem phrase_membership {field operator : String} (hfield : Wordy field)
    (hoperator : Wordy operator) {names : List String} (hne : names ≠ [])
    (hnames : ∀ name ∈ names, ColonName name) :
    Phrase (field ++ " " ++ operator ++ " (" ++ ",".intercalate names ++ ")") := by
  have hlist := (colonName_intercalate hne hnames).wordy
  have hphrase := (hfield.phrase.words hoperator).brackets hlist
  simpa only [String.append_assoc] using hphrase

theorem phrase_scalar {field operator name : String} (hfield : Wordy field)
    (hoperator : Wordy operator) (hname : ColonName name) :
    Phrase (field ++ " " ++ operator ++ " " ++ name) := by
  have hphrase := (hfield.phrase.words hoperator).words hname.wordy
  simpa only [String.append_assoc] using hphrase

theorem phrase_range {field low high : String} (hfield : Wordy field) (hlow : ColonName low)
    (hhigh : ColonName high) : Phrase (field ++ " BETWEEN " ++ low ++ " AND " ++ high) := by
  have hphrase := hfield.phrase.range hlow.wordy hhigh.wordy
  simpa only [String.append_assoc] using hphrase

namespace ConditionKey

/-- Field, operator and suffix are plain words, the operator unless it is one of those known. -/
structure IsWordy (k : ConditionKey) : Prop where
  field : Wordy k.field
  operator : ∀ token, k.operator = .other token → Wordy token
  suffix : ∀ s, k.suffix = some s → Wordy s

variable {k : ConditionKey} {operand : Operand}

theorem IsWordy.phrase_comparison (hk : k.IsWordy) (hfits : k.operator.takes operand = true)
    (p : Placement) : Phrase (k.comparison (p.placeAll operand.values).1) := by
  have hnames := colonName_placeAll p operand.values
  obtain ⟨hfield, hoperator, -⟩ := hk
  obtain ⟨field, op, suffix⟩ := k
  cases op with
  | oneOf =>
    have hop : Wordy "IN" := by decide
    rcases operand with v | ⟨_ | ⟨v, vs⟩⟩ | ⟨low, high⟩
    · cases hfits
    · have hnone : Wordy "1=0" := by decide
      exact hnone.phrase
    · exact phrase_membership hfield hop (List.cons_ne_nil _ _) hnames
    · exact phrase_membership hfield hop (List.cons_ne_nil _ _) hnames
  | noneOf =>
    have hop : Wordy "NOT IN" := by decide
    rcases operand with v | ⟨_ | ⟨v, vs⟩⟩ | ⟨low, high⟩
    · cases hfits
    · have hall : Wordy "1=1" := by decide
      exact hall.phrase
    · exact phrase_membership hfield hop (List.cons_ne_nil _ _) hnames
    · exact phrase_membership hfield hop (List.cons_ne_nil _ _) hnames
  | between =>
    rcases operand with v | ⟨_ | ⟨low, _ | ⟨high, _ | ⟨v, vs⟩⟩⟩⟩ | ⟨low, high⟩
    · cases hfits
    · cases hfits
    · cases hfits
    · exact phrase_range hfield (hnames _ List.mem_cons_self)
        (hnames _ (List.mem_cons_of_mem _ List.mem_cons_self))
    · cases hfits
    · exact phrase_range hfield (hnames _ List.mem_cons_self)
        (hnames _ (List.mem_cons_of_mem _ List.mem_cons_self))
  | equal =>
    have hop : Wordy "=" := by decide
    cases operand with
    | scalar v => exact phrase_scalar hfield hop (hnames _ List.mem_cons_self)
    | list vs => cases hfits
    | range low high => cases hfits
  | other token =>
    cases operand with
    | scalar v => exact phrase_scalar hfield (hoperator token rfl) (hnames _ List.mem_cons_self)
    | list vs => cases hfits
    | range low high => cases hfits

/-- A comparison whose key is in plain words is one atom. -/
theorem IsWordy.phrase_sql (hk : k.IsWordy) (hfits : k.operator.takes operand = true)
    (p : Placement) : Phrase (k.sql (p.placeAll operand.values).1) := by
  have hcomparison := hk.phrase_comparison hfits p
  unfold ConditionKey.sql
  cases hsuffix : k.suffix with
  | none => exact hcomparison
  | some s => exact hcomparison.words (hk.suffix s hsuffix)

end ConditionKey

theorem ConditionKey.isWordy_of_name {key : String} (hquote : Text.hasChar '\x60' key = false)
    (hpoint : Text.hasChar '.' key = false) (hcolon : Text.hasChar ':' key = false) :
    (ConditionKey.parse key).IsWordy := by
  have hsplit : Text.split ':' key = [key] := by
    have hnone : ':' ∉ key.toList := by
      simpa [Text.hasChar] using hcolon
    unfold Text.split
    rw [List.splitOn_eq_singleton hnone, List.map_singleton, String.ofList_toList]
  have hparse : ConditionKey.parse key = ⟨quoteField key, .equal, none⟩ := by
    unfold ConditionKey.parse
    rw [hsplit]
  rw [hparse]
  refine ⟨wordy_quoteField hquote hpoint, ?_, ?_⟩
  · rintro token ⟨⟩
  · rintro s ⟨⟩

end SqlStatement
