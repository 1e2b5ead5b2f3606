import SqlStatement.Proofs.Positional.Reading

/-!
# Placeholders by position and back

Rewriting placeholders into question marks loses nothing. A reader that knows only quotes and
question marks can put the keys back, and rewriting once more finds the same question marks.

* `Quoting`, `Quoting.marks`, `Quoting.putBack` : the question marks outside quotes, and other texts
  in their place;
* `Lexed`, `lexed_tokens` : the quotes among the tokens are those of the text that they leave;
* `positional_roundTrip` : putting back, counting, numbering and rewriting again.
-/

namespace SqlStatement

/-! ## Question marks outside quotes -/

/-- Where a reader of quotes stands. -/
inductive Quoting where
  | outside
  | inside (quote : Char)
  /-- between quotes, after a backslash -/
  | protecting (quote : Char)
  deriving DecidableEq, Repr

namespace Quoting

/-- How the reader goes on. A backslash protects the next character, but not between backticks. -/
def next : Quoting → Char → Quoting
  | outside, c => if isQuoteMark c then inside c else outside
  | inside q, c =>
    if c = '\\' ∧ q ≠ '\x60' then protecting q else if c = q then outside else inside q
  | protecting q, _ => inside q

def marks : Quoting → List Char → Nat
  | _, [] => 0
  | st, c :: cs => (if st = outside ∧ c = '?' then 1 else 0) + marks (st.next c) cs

/-- The text with its question marks outside quotes replaced by the texts of a list in order. Where
the list has come to its end, question marks stay. -/
def putBack : Quoting → List (List Char) → List Char → List Char
  | _, _, [] => []
  | st, ts, c :: cs =>
    if st = outside ∧ c = '?' then ts.headD ['?'] ++ putBack outside ts.tail cs
    else c :: putBack (st.next c) ts cs

end Quoting

namespace ParamKey

def placeholder : ParamKey → String
  | named name => name
  | positional _ => "?"

def position? : ParamKey → Option Nat
  | named _ => none
  | positional n => some n

end ParamKey

/-! ## Reading -/

/-- What is read of a character outside quotes: a quote, a question mark, the start of a name, or a
plain character. A plain colon stands after another one or is followed by no name. -/
theorem readOutside_cases (b : Bool) (c : Char) (next : Option Char) :
    (isQuoteMark c = true ∧ readOutside b c next = ([.quoted c], .inside c)) ∨
      (c = '?' ∧ readOutside b c next = ([.mark], .outside false)) ∨
      (c = ':' ∧ b = false ∧ readOutside b c next = ([], .naming [':'])) ∨
      (isQuoteMark c = false ∧ c ≠ '?' ∧ (c = ':' → b = true ∨ next.any startsName = false) ∧
        readOutside b c next = ([.plain c], .outside (c == ':'))) := by
  unfold readOutside
  by_cases hquote : isQuoteMark c = true
  · left
    exact ⟨hquote, by rw [if_pos hquote]⟩
  · right
    rw [if_neg hquote]
    by_cases hmark : c = '?'
    · left
      exact ⟨hmark, by rw [if_pos hmark]⟩
    · right
      rw [if_neg hmark]
      by_cases hcolon : c = ':'
      · subst hcolon
        cases b <;> cases next.any startsName <;> simp [isQuoteMark]
      · right
        simp [hquote, hmark, hcolon]

/-- A name goes on, or it is a token and the next character is read as one outside quotes. -/
theorem tokens_naming_cons (name : List Char) (c : Char) (cs : List Char) :
    tokens (.naming name) (c :: cs) =
      if continuesName c then tokens (.naming (name ++ [c])) cs
      else .named name :: tokens (.outside false) (c :: cs) := by
  split_ifs with hc
  · rw [tokens, if_pos hc]
  · refine tokens_naming name ?_
    rintro _ ⟨⟩
    exact Bool.eq_false_iff.2 hc

/-- What a reader of a statement has read and not yet given as a token. -/
def Scan.pending : Scan → List Char
  | naming name => name
  | _ => []

theorem pending_readInside (q c : Char) : (readInside q c).pending = [] := by
  unfold readInside
  split_ifs <;> rfl

/-- The tokens are the parts of the statement. -/
theorem source_tokens (st : Scan) (cs : List Char) :
    (tokens st cs).flatMap Token.source = st.pending ++ cs := by
  induction cs generalizing st with
  | nil => cases st <;> rfl
  | cons c cs ih =>
    have houtside : ∀ b, (tokens (.outside b) (c :: cs)).flatMap Token.source = c :: cs := by
      intro b
      rw [tokens, List.flatMap_append, ih]
      obtain ⟨-, h⟩ | ⟨rfl, h⟩ | ⟨rfl, -, h⟩ | ⟨-, -, -, h⟩ := readOutside_cases b c cs.head?
      all_goals
        rw [h]
        rfl
    cases st with
    | outside b => exact houtside b
    | inside q =>
      rw [tokens, List.flatMap_cons, ih, pending_readInside]
      rfl
    | protecting q =>
      rw [tokens, List.flatMap_cons, ih]
      rfl
    | naming name =>
      rw [tokens_naming_cons]
      split_ifs
      · rw [ih]
        exact List.append_assoc name [c] cs
      · rw [List.flatMap_cons, houtside]
        rfl

/-! ## The text that tokens leave -/

/-- Where a reader of quotes stands when the statement has been read so far. -/
def Scan.quoting : Scan → Quoting
  | inside q => .inside q
  | protecting q => .protecting q
  | _ => .outside

/-- Tokens of which a reader of quotes has the same view: between quotes there are quoted characters
only, outside there is no plain quote or question mark. -/
inductive Lexed : Quoting → List Token → Prop
  | nil (st : Quoting) : Lexed st []
  | plain {c : Char} {ts : List Token} (hquote : isQuoteMark c = false) (hmark : c ≠ '?') :
    Lexed .outside ts → Lexed .outside (.plain c :: ts)
  | named {name : List Char} {ts : List Token} :
    Lexed .outside ts → Lexed .outside (.named name :: ts)
  | mark {ts : List Token} : Lexed .outside ts → Lexed .outside (.mark :: ts)
  | quoted {st : Quoting} {c : Char} {ts : List Token} (hc : ¬(st = .outside ∧ c = '?')) :
    Lexed (st.next c) ts → Lexed st (.quoted c :: ts)

theorem lexed_tokens (st : Scan) (cs : List Char) : Lexed st.quoting (tokens st cs) := by
  induction cs generalizing st with
  | nil =>
    cases st with
    | naming name => exact .named (.nil _)
    | _ => exact .nil _
  | cons c cs ih =>
    have houtside : ∀ b, Lexed .outside (tokens (.outside b) (c :: cs)) := by
      intro b
      rw [tokens]
      obtain ⟨hquote, h⟩ | ⟨-, h⟩ | ⟨-, -, h⟩ | ⟨hquote, hmark, -, h⟩ :=
        readOutside_cases b c cs.head?
      · rw [h]
        refine .quoted ?_ ?_
        · rintro ⟨-, rfl⟩
          cases hquote
        · show Lexed (if isQuoteMark c then .inside c else .outside) _
          rw [if_pos hquote]
          exact ih (.inside c)
      · rw [h]
        exact .mark (ih (.outside false))
      · rw [h]
        exact ih (.naming [':'])
      · rw [h]
        exact .plain hquote hmark (ih (.outside (c == ':')))
    cases st with
    | outside b => exact houtside b
    | inside q =>
      rw [tokens]
      refine .quoted (by simp [Scan.quoting]) ?_
      have hnext : (readInside q c).quoting = (Quoting.inside q).next c := by
        simp only [readInside, Quoting.next]
        split_ifs <;> rfl
      exact hnext ▸ ih (readInside q c)
    | protecting q =>
      rw [tokens]
      exact .quoted (by simp [Scan.quoting]) (ih (.inside q))
    | naming name =>
      rw [tokens_naming_cons]
      split_ifs
      · exact ih (.naming (name ++ [c]))
      · exact .named (houtside false)

namespace Lexed

variable {st : Quoting} {ts : List Token}

theorem next_outside {c : Char} (hc : isQuoteMark c = false) :
    Quoting.outside.next c = .outside := by
  simp [Quoting.next, hc]

theorem marks_marked (h : Lexed st ts) (n : Nat) :
    st.marks (ts.flatMap Token.marked) = (Token.keysFrom n ts).length := by
  induction h generalizing n with
  | nil st => rfl
  | plain hquote hmark h ih =>
    simp [Token.marked, Quoting.marks, Token.keysFrom, next_outside hquote, hmark, ih n]
  | named h ih =>
    have hnext := next_outside (c := '?') rfl
    simp [Token.marked, Quoting.marks, Token.keysFrom, hnext, ih n, Nat.add_comm]
  | mark h ih =>
    have hnext := next_outside (c := '?') rfl
    simp [Token.marked, Quoting.marks, Token.keysFrom, hnext, ih (n + 1), Nat.add_comm]
  | quoted hc h ih => simp [Token.marked, Quoting.marks, Token.keysFrom, hc, ih n]

theorem putBack_marked (h : Lexed st ts) (n : Nat) :
    st.putBack ((Token.keysFrom n ts).map (·.placeholder.toList)) (ts.flatMap Token.marked) =
      ts.flatMap Token.source := by
  induction h generalizing n with
  | nil st => rfl
  | plain hquote hmark h ih =>
    simp [Token.marked, Token.source, Quoting.putBack, Token.keysFrom, next_outside hquote, hmark,
      ih n]
  | @named name _ h ih =>
    have hname : (ParamKey.named (String.ofList name)).placeholder.toList = name :=
      String.toList_ofList
    simp [Token.marked, Token.source, Quoting.putBack, Token.keysFrom, hname, ih n]
  | mark h ih =>
    have hmark : (ParamKey.positional (n + 1)).placeholder.toList = ['?'] := by
      simp [ParamKey.placeholder]
    simp [Token.marked, Token.source, Quoting.putBack, Token.keysFrom, hmark, ih (n + 1)]
  | quoted hc h ih => simp [Token.marked, Token.source, Quoting.putBack, Token.keysFrom, hc, ih n]

end Lexed

/-! ## Rewriting again -/

def Token.nameless : Token → Token
  | named _ => mark
  | t => t

theorem marked_nameless (ts : List Token) :
    (ts.map Token.nameless).flatMap Token.marked = ts.flatMap Token.marked := by
  induction ts with
  | nil => rfl
  | cons t ts ih =>
    rw [List.map_cons, List.flatMap_cons, List.flatMap_cons, ih]
    cases t <;> rfl

/-- Without names the keys are numbers, one for each key there was. -/
theorem keysFrom_nameless (m n : Nat) (ts : List Token) :
    Token.keysFrom m (ts.map Token.nameless) =
      (List.range' (m + 1) (Token.keysFrom n ts).length).map .positional := by
  induction ts generalizing m n with
  | nil => rfl
  | cons t ts ih =>
    cases t with
    | plain c => exact ih m n
    | quoted c => exact ih m n
    | named name => exact congrArg (ParamKey.positional (m + 1) :: ·) (ih (m + 1) n)
    | mark => exact congrArg (ParamKey.positional (m + 1) :: ·) (ih (m + 1) (n + 1))

theorem positions_keysFrom (n : Nat) (ts : List Token) :
    (Token.keysFrom n ts).filterMap ParamKey.position? =
      List.range' (n + 1) ((Token.keysFrom n ts).filterMap ParamKey.position?).length := by
  induction ts generalizing n with
  | nil => rfl
  | cons t ts ih =>
    cases t with
    | plain c => exact ih n
    | quoted c => exact ih n
    | named name => exact ih n
    | mark => exact congrArg ((n + 1) :: ·) (ih (n + 1))

/-- Right after a colon no name starts, so the next character stays what it is. -/
theorem head?_marked (cs : List Char) :
    ((tokens (.outside true) cs).flatMap Token.marked).head? = cs.head? := by
  cases cs with
  | nil => rfl
  | cons c cs =>
    rw [tokens]
    obtain ⟨-, h⟩ | ⟨rfl, h⟩ | ⟨-, hb, -⟩ | ⟨-, -, -, h⟩ := readOutside_cases true c cs.head?
    · rw [h]
      rfl
    · rw [h]
      rfl
    · cases hb
    · rw [h]
      rfl

/-- Where the reading of a rewritten statement stands: a name has become a question mark. -/
def Scan.settled : Scan → Scan
  | naming _ => outside false
  | st => st

/-- Reading a rewritten statement gives the same tokens without names. -/
theorem tokens_marked (st : Scan) (cs : List Char) :
    tokens st.settled ((tokens st cs).flatMap Token.marked) =
      (tokens st cs).map Token.nameless := by
  induction cs generalizing st with
  | nil => cases st <;> rfl
  | cons c cs ih =>
    have houtside : ∀ b,
        tokens (.outside b) ((tokens (.outside b) (c :: cs)).flatMap Token.marked) =
          (tokens (.outside b) (c :: cs)).map Token.nameless := by
      intro b
      rw [tokens]
      obtain ⟨hquote, h⟩ | ⟨-, h⟩ | ⟨-, rfl, h⟩ | ⟨hquote, hmark, hcolon, h⟩ :=
        readOutside_cases b c cs.head?
      · have hrest := ih (.inside c)
        have hread : ∀ next, readOutside b c next = ([.quoted c], .inside c) := by
          simp [readOutside, hquote]
        rw [h]
        show tokens (.outside b) (c :: _) = .quoted c :: _
        rw [tokens, hread]
        exact congrArg (Token.quoted c :: ·) hrest
      · have hrest := ih (.outside false)
        rw [h]
        exact congrArg (Token.mark :: ·) hrest
      · rw [h]
        exact ih (.naming [':'])
      · have hrest := ih (.outside (c == ':'))
        rw [h]
        show tokens (.outside b) (c :: (tokens (.outside (c == ':')) cs).flatMap Token.marked) =
          .plain c :: _
        -- A colon stays plain by the character after it, which rewriting leaves in its place.
        have hread :
            readOutside b c ((tokens (.outside (c == ':')) cs).flatMap Token.marked).head? =
              ([.plain c], .outside (c == ':')) := by
          by_cases hc : c = ':'
          · subst hc
            rw [beq_self_eq_true, head?_marked, h]
            rfl
          · simp [readOutside, hquote, hmark, hc]
        rw [tokens, hread]
        exact congrArg (Token.plain c :: ·) hrest
    cases st with
    | outside b => exact houtside b
    | inside q =>
      rw [tokens]
      have hsettled : (readInside q c).settled = readInside q c := by
        unfold readInside
        split_ifs <;> rfl
      have hrest := ih (readInside q c)
      rw [hsettled] at hrest
      exact congrArg (Token.quoted c :: ·) hrest
    | protecting q =>
      rw [tokens]
      exact congrArg (Token.quoted c :: ·) (ih (.inside q))
    | naming name =>
      rw [tokens_naming_cons]
      split_ifs
      · exact ih (.naming (name ++ [c]))
      · exact congrArg (Token.mark :: ·) (houtside false)

/-! ## Rewriting and putting back -/

/-- A statement rewritten to question marks has one of them outside quotes for each key, and with
the placeholders of the keys in their place it is the statement again. Question marks of the
statement are numbered from one on. Rewriting once more changes nothing and numbers all of them. -/
theorem positional_roundTrip (sql : String) :
    Quoting.putBack .outside ((positional sql).order.map (·.placeholder.toList))
        (positional sql).sql.toList = sql.toList ∧
      Quoting.marks .outside (positional sql).sql.toList = (positional sql).order.length ∧
      (positional sql).order.filterMap ParamKey.position? =
        List.range' 1 ((positional sql).order.filterMap ParamKey.position?).length ∧
      positional (positional sql).sql =
        ⟨(positional sql).sql, (List.range' 1 (positional sql).order.length).map .positional⟩ := by
  have hsql : (positional sql).sql.toList =
      (tokens (.outside false) sql.toList).flatMap Token.marked := String.toList_ofList
  have horder : (positional sql).order =
      Token.keysFrom 0 (tokens (.outside false) sql.toList) := rfl
  have hlexed := lexed_tokens (.outside false) sql.toList
  have hagain : tokens (.outside false) (positional sql).sql.toList =
      (tokens (.outside false) sql.toList).map Token.nameless := by
    rw [hsql]
    exact tokens_marked (.outside false) sql.toList
  refine ⟨?_, ?_, ?_, ?_⟩
  · rw [hsql, horder]
    exact (hlexed.putBack_marked 0).trans (source_tokens (.outside false) sql.toList)
  · rw [hsql, horder]
    exact hlexed.marks_marked 0
  · rw [horder]
    exact positions_keysFrom 0 _
  · rw [horder, ← keysFrom_nameless 0 0]
    show Positional.mk (String.ofList ((tokens (.outside false) (positional sql).sql.toList).flatMap
      Token.marked)) (Token.keysFrom 0 (tokens (.outside false) (positional sql).sql.toList)) = _
    rw [hagain, marked_nameless]
    rfl

/-- A colon after another one and a mark between quotes are no placeholders. -/
example : positional "SELECT :a, x::text, 'b\\'? :c' = ?" =
    ⟨"SELECT ?, x::text, 'b\\'? :c' = ?", [.named ":a", .positional 1]⟩ := by
  decide

end SqlStatement
