import SqlStatement.Database.Statement
import SqlStatement.Proofs.Positional.RoundTrip

/-!
# Rows of rewritten statements

Whether a statement yields rows is told by the keyword that it starts with and by a returning clause
anywhere in it. Rewriting placeholders into question marks moves neither. A keyword ends where a
placeholder begins, and so it does at a question mark. A returning clause begins with a blank and has
no colon, so it has no part in a placeholder, and no question mark stands in it.

* `Rewritten`, `rewritten_tokens` : texts with question marks for names;
* `returnsRows_positional` : which of the two is asked of the database.
-/

namespace SqlStatement

/-! ## Rewritten texts -/

/-- A text, and the same text with question marks for names in it. -/
inductive Rewritten : List Char → List Char → Prop
  | nil : Rewritten [] []
  | char {cs ds : List Char} (c : Char) : Rewritten cs ds → Rewritten (c :: cs) (c :: ds)
  | name {w cs ds : List Char} (hw : ∀ c ∈ w, continuesName c = true) :
    Rewritten cs ds → Rewritten (':' :: (w ++ cs)) ('?' :: ds)

/-- What has been read of a name starts with a colon and goes on as a name does. -/
def Scan.Begun : Scan → Prop
  | naming name => ∃ w, name = ':' :: w ∧ ∀ c ∈ w, continuesName c = true
  | _ => True

theorem begun_readInside (q c : Char) : (readInside q c).Begun := by
  unfold readInside
  split_ifs <;> trivial

theorem rewritten_tokens (st : Scan) (hst : st.Begun) (cs : List Char) :
    Rewritten (st.pending ++ cs) ((tokens st cs).flatMap Token.marked) := by
  induction cs generalizing st with
  | nil =>
    cases st with
    | naming name =>
      obtain ⟨w, rfl, hw⟩ := hst
      exact .name hw .nil
    | _ => exact .nil
  | cons c cs ih =>
    have houtside : ∀ b,
        Rewritten (c :: cs) ((tokens (.outside b) (c :: cs)).flatMap Token.marked) := by
      intro b
      rw [tokens]
      obtain ⟨-, h⟩ | ⟨rfl, h⟩ | ⟨rfl, -, h⟩ | ⟨-, -, -, h⟩ := readOutside_cases b c cs.head?
      · rw [h]
        exact .char c (ih (.inside c) trivial)
      · rw [h]
        exact .char '?' (ih (.outside false) trivial)
      · rw [h]
        exact ih (.naming [':']) ⟨[], rfl, by simp⟩
      · rw [h]
        exact .char c (ih (.outside (c == ':')) trivial)
    cases st with
    | outside b => exact houtside b
    | inside q =>
      have hrest := ih (readInside q c) (begun_readInside q c)
      rw [pending_readInside, List.nil_append] at hrest
      rw [tokens]
      exact .char c hrest
    | protecting q =>
      rw [tokens]
      exact .char c (ih (.inside q) trivial)
    | naming name =>
      obtain ⟨w, rfl, hw⟩ := hst
      rw [tokens_naming_cons]
      split_ifs with hc
      · have hmore : ∀ b ∈ w ++ [c], continuesName b = true := by
          simpa [or_imp, forall_and] using ⟨hw, hc⟩
        have hrest := ih (.naming (':' :: (w ++ [c]))) ⟨w ++ [c], rfl, hmore⟩
        simpa [Scan.pending] using hrest
      · exact .name hw (houtside false)

theorem rewritten_positional (sql : String) :
    Rewritten sql.toList (positional sql).sql.toList := by
  have hsql : (positional sql).sql.toList =
      (tokens (.outside false) sql.toList).flatMap Token.marked := String.toList_ofList
  rw [hsql]
  exact rewritten_tokens (.outside false) trivial sql.toList

/-- A text that has no part in a placeholder, and in which no placeholder has a part. -/
structure Foreign (l : List Char) : Prop where
  colon : ':' ∉ l
  mark : '?' ∉ l
  apart : Apart l

namespace Rewritten

variable {cs ds l : List Char} {p : Char → Bool}

theorem takeWhile_eq (h : Rewritten cs ds) (hcolon : p ':' = false) (hmark : p '?' = false) :
    cs.takeWhile p = ds.takeWhile p := by
  induction h with
  | nil => rfl
  | char c h ih => rw [List.takeWhile_cons, List.takeWhile_cons, ih]
  | name hw h ih =>
    rw [List.takeWhile_cons_of_neg (Bool.eq_false_iff.1 hcolon),
      List.takeWhile_cons_of_neg (Bool.eq_false_iff.1 hmark)]

theorem dropWhile (h : Rewritten cs ds) (hcolon : p ':' = false) (hmark : p '?' = false) :
    Rewritten (cs.dropWhile p) (ds.dropWhile p) := by
  induction h with
  | nil => exact .nil
  | char c h ih =>
    by_cases hc : p c = true
    · rw [List.dropWhile_cons_of_pos hc, List.dropWhile_cons_of_pos hc]
      exact ih
    · rw [List.dropWhile_cons_of_neg hc, List.dropWhile_cons_of_neg hc]
      exact .char c h
  | name hw h ih =>
    rw [List.dropWhile_cons_of_neg (Bool.eq_false_iff.1 hcolon),
      List.dropWhile_cons_of_neg (Bool.eq_false_iff.1 hmark)]
    exact .name hw h

theorem infix_append_iff (h : Rewritten cs ds) (hl : Foreign l) (a : List Char) :
    l <:+: a ++ cs ↔ l <:+: a ++ ds := by
  -- A foreign text may begin in `a`, to which the induction adds what both texts have, and a name
  -- or its question mark cuts it off.
  induction h generalizing a with
  | nil => rfl
  | char c h ih =>
    have hrest := ih (a ++ [c])
    rwa [List.append_assoc, List.append_assoc] at hrest
  | @name w cs ds hw h ih =>
    have hstart : ∀ c ∈ l.head?, c ∉ w := by
      intro c hc hmem
      have hcontinues := hw c hmem
      rw [hl.apart c hc] at hcontinues
      cases hcontinues
    rw [Text.infix_append_cons_iff hl.colon, Text.infix_append_cons_iff hl.mark,
      Text.infix_word_append_iff hstart]
    exact or_congr_right (ih [])

/-- A foreign text stands in the one if and only if it stands in the other. -/
theorem infix_iff (h : Rewritten cs ds) (hl : Foreign l) : l <:+: cs ↔ l <:+: ds :=
  h.infix_append_iff hl []

end Rewritten

/-! ## Keywords and returning clauses -/

theorem leadingKeyword_positional (sql : String) :
    leadingKeyword (positional sql).sql = leadingKeyword sql := by
  have hstart := (rewritten_positional sql).dropWhile
    (p := fun c => Text.isBlank c || c == '(') (by decide) (by decide)
  have hletters := hstart.takeWhile_eq (p := Char.isAlpha) (by decide) (by decide)
  unfold leadingKeyword
  dsimp only
  rw [hletters]

/-- However its letters are written, a returning clause is foreign to placeholders. -/
theorem foreign_of_returning {l : List Char} (h : " RETURNING ".toList = l.map Char.toUpper) :
    Foreign l := by
  have hmem : ∀ c ∈ l, c.toUpper ∈ " RETURNING ".toList := by
    rw [h]
    exact fun c hc => List.mem_map_of_mem hc
  refine ⟨fun hc => ?_, fun hc => ?_, fun c hc => ?_⟩
  · exact absurd (hmem ':' hc) (by decide)
  · exact absurd (hmem '?' hc) (by decide)
  · have hblank : " RETURNING ".toList.head? = some ' ' := by decide
    rw [h, List.head?_map, Option.mem_def.1 hc] at hblank
    obtain rfl : c = ' ' := Text.eq_of_toUpper_eq (by decide) (Option.some.inj hblank)
    rfl

theorem occurs_returning_positional (sql : String) :
    Text.occurs " RETURNING " (Text.asciiUpper (positional sql).sql) =
      Text.occurs " RETURNING " (Text.asciiUpper sql) := by
  rw [Bool.eq_iff_iff, Text.occurs_asciiUpper_iff, Text.occurs_asciiUpper_iff]
  refine exists_congr fun l => and_congr_left fun hl => ?_
  exact ((rewritten_positional sql).infix_iff (foreign_of_returning hl)).symm

/-! ## Calls to a statement on a database -/

namespace Database

inductive Call where
  | bind (p : BoundParam)
  | execute
  | fetch
  | fetchAll
  | close

variable {σ : Type}

def Call.apply (st : Statement) (s : Session σ) : Call → Statement × Session σ
  | bind p => (st.bind p, s)
  | execute => (st.execute s).2
  | fetch => (st.fetch.2, s)
  | fetchAll => (st.fetchAll.2, s)
  | close => (st.closeCursor, s)

def after (st : Statement) (s : Session σ) (calls : List Call) : Statement × Session σ :=
  calls.foldl (fun x c => c.apply x.1 x.2) (st, s)

theorem Statement.sql_executeFor (yields : Bool) (st : Statement) (s : Session σ) :
    (st.executeFor yields s).2.1.sql = st.sql := by
  unfold executeFor askRows askEffect
  split
  next => rfl
  next => split_ifs <;> split <;> rfl

theorem Call.sql_apply (st : Statement) (s : Session σ) (c : Call) :
    (c.apply st s).1.sql = st.sql := by
  cases c with
  | execute => exact st.sql_executeFor _ s
  | _ => rfl

/-- No call changes the text of a statement. -/
theorem sql_after (st : Statement) (s : Session σ) (calls : List Call) :
    (after st s calls).1.sql = st.sql := by
  induction calls generalizing st s with
  | nil => rfl
  | cons c calls ih => exact (ih _ _).trans (c.sql_apply st s)

end Database

/-! ## Statements that yield rows -/

/-- A statement with question marks for its placeholders yields rows if and only if the statement
does. Prepared for a database it keeps that text. Whatever calls have been made to it, and whatever
has become of the session, it is then executed for its rows if the statement yields rows, and for
its effect if not. -/
theorem returnsRows_positional (sql : String) :
    returnsRows (positional sql).sql = returnsRows sql ∧
      ∀ {σ : Type} (s t : Database.Session σ) (calls : List Database.Call),
        let st := (Database.after (.prepare sql) s calls).1
        st.sql = (positional sql).sql ∧ st.execute t = st.executeFor (returnsRows sql) t := by
  have hrows : returnsRows (positional sql).sql = returnsRows sql := by
    unfold returnsRows
    rw [leadingKeyword_positional, occurs_returning_positional]
  refine ⟨hrows, fun s t calls => ?_⟩
  intro st
  have hsql : st.sql = (positional sql).sql := Database.sql_after (.prepare sql) s calls
  refine ⟨hsql, ?_⟩
  unfold Database.Statement.execute
  rw [hsql, hrows]

/-- A clause right after a placeholder, on a database whose rows hold the values it is given. -/
example :
    let db : Database Unit :=
      ⟨fun _ values _ => (.ok [⟨["b"], values⟩], ()), fun _ _ _ => (.ok ⟨1, some 7⟩, ())⟩
    let st := (Database.Statement.prepare "insert into t set b = :b returning b").bind
      (.of (.named ":b") (.text "5"))
    (st.execute ⟨db, (), none⟩).2.1.fetch.1 = some ⟨["b"], [.int 5]⟩ := by
  decide +kernel

end SqlStatement
