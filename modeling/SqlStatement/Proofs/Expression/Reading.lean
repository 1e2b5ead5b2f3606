import SqlStatement.Proofs.Expression.Formula
import SqlStatement.Proofs.Positional.RoundTrip

/-!
# Texts as boolean expressions

A text is read as an expression in three steps. Words and brackets are told apart, where what stands
between quotes is one word. From these come the symbols: `AND`, `OR` and brackets, and between them
atoms. A bracket after the first word of an atom belongs to the atom with all up to its closing one,
and so does the `AND` of a range. The symbols are those of one expression at most.

* `Transducer.run_append_cons` : what ends a part of the list that is read;
* `symbols?`, `Reads` : the expression that a text is.
-/

namespace SqlStatement

/-! ## Writing while reading -/

/-- What is written while a list is read, with what is left to write at its end. -/
structure Transducer (σ α β : Type) where
  init : σ
  step : σ → α → List β × σ
  finish : σ → Option (List β)

namespace Transducer

variable {σ α β : Type} {m : Transducer σ α β}

def run (m : Transducer σ α β) : σ → List α → Option (List β)
  | st, [] => m.finish st
  | st, x :: xs => (m.run (m.step st x).2 xs).map ((m.step st x).1 ++ ·)

def output? (m : Transducer σ α β) (xs : List α) : Option (List β) := m.run m.init xs

/-- The member is read like the end of the list, `own` is written for it, and it leads back to the initial
state. -/
def Parts (m : Transducer σ α β) (x : α) (own : List β) : Prop :=
  ∀ st rest, m.finish st = some rest → m.step st x = (rest ++ own, m.init)

/-- What stands before such a member and what comes after it are read each by itself. -/
theorem run_append_cons {x : α} {own : List β}
    (hx : m.Parts x own) {st : σ} {xs xs' : List α} {ys zs : List β} (hxs : m.run st xs = some ys)
    (hxs' : m.output? xs' = some zs) : m.run st (xs ++ x :: xs') = some (ys ++ (own ++ zs)) := by
  induction xs generalizing st ys with
  | nil =>
    have hstep := hx st ys hxs
    show (m.run (m.step st x).2 xs').map _ = _
    rw [hstep]
    show (m.output? xs').map (ys ++ own ++ ·) = _
    rw [hxs', Option.map_some, List.append_assoc]
  | cons w xs ih =>
    obtain ⟨ys', hrun, rfl⟩ := Option.map_eq_some_iff.1 hxs
    show (m.run (m.step st w).2 (xs ++ x :: xs')).map _ = _
    rw [ih hrun, Option.map_some, List.append_assoc]

end Transducer

/-! ## Words and brackets -/

inductive Lexeme where
  | word (cs : List Char)
  | opening
  | closing
  deriving DecidableEq, Repr

def Lexeme.isKeyword (keyword : String) : Lexeme → Bool
  | word cs => cs.map Char.toUpper == keyword.toList
  | _ => false

/-- Where a reader of words and brackets stands, and the characters of a word so far. -/
structure Lexing where
  quoting : Quoting := .outside
  word : List Char := []

namespace Lexing

def given (st : Lexing) : List Lexeme := if st.word = [] then [] else [.word st.word]

def step (st : Lexing) (c : Char) : List Lexeme × Lexing :=
  if st.quoting = .outside then
    if c.isWhitespace then (st.given, {})
    else if c = '(' then (st.given ++ [.opening], {})
    else if c = ')' then (st.given ++ [.closing], {})
    else if isQuoteMark c then (st.given, ⟨.inside c, [c]⟩)
    else ([], { st with word := st.word ++ [c] })
  else if st.quoting.next c = .outside then ([.word (st.word ++ [c])], {})
  else ([], ⟨st.quoting.next c, st.word ++ [c]⟩)

end Lexing

/-- The words and brackets of a text in which each quote is closed. -/
def lexing : Transducer Lexing Char Lexeme where
  init := {}
  step := Lexing.step
  finish st := if st.quoting = .outside then some st.given else none

/-! ## Atoms, connectives and groups -/

/-- The words and brackets of an atom so far, the brackets open in it, and whether the `AND` of a
range is to come. -/
structure Gathering where
  atom : List Lexeme := []
  depth : Nat := 0
  range : Bool := false

namespace Gathering

def given (g : Gathering) : List (Symbol (List Lexeme)) := if g.atom = [] then [] else [.atom g.atom]

def step (g : Gathering) (x : Lexeme) : List (Symbol (List Lexeme)) × Gathering :=
  if g.depth = 0 then
    match x with
    | .opening =>
      if g.atom = [] then ([.opening], {}) else ([], { g with atom := g.atom ++ [x], depth := 1 })
    | .closing => (g.given ++ [.closing], {})
    | .word _ =>
      if x.isKeyword "OR" then (g.given ++ [.disj], {})
      else if x.isKeyword "AND" && !g.range then (g.given ++ [.conj], {})
      else
        let range := x.isKeyword "BETWEEN" || g.range && !x.isKeyword "AND"
        ([], { g with atom := g.atom ++ [x], range })
  else
    let depth := match x with
      | .opening => g.depth + 1
      | .closing => g.depth - 1
      | .word _ => g.depth
    ([], { g with atom := g.atom ++ [x], depth })

end Gathering

/-- The symbols of words and brackets in which each atom is complete. -/
def gathering : Transducer Gathering Lexeme (Symbol (List Lexeme)) where
  init := {}
  step := Gathering.step
  finish g := if g.depth = 0 ∧ g.range = false then some g.given else none

/-! ## Expressions -/

def symbols? (s : String) : Option (List (Symbol (List Lexeme))) :=
  (lexing.output? s.toList).bind gathering.output?

/-- The text is the expression. -/
def Reads (s : String) (e : Expression (List Lexeme)) : Prop := symbols? s = some e.symbols

instance (s : String) (e : Expression (List Lexeme)) : Decidable (Reads s e) :=
  inferInstanceAs (Decidable (_ = _))

variable {s t : String} {e f : Expression (List Lexeme)}

theorem reads_iff : Reads s e ↔ (symbols? s).bind parse = some e := by
  unfold Reads
  rw [Option.bind_eq_some_iff]
  constructor
  · intro h
    exact ⟨e.symbols, h, parse_eq_some_iff.2 rfl⟩
  · rintro ⟨us, hus, hparse⟩
    rw [parse_eq_some_iff.1 hparse]
    exact hus

/-- A text is one expression at most. -/
theorem Reads.unique (he : Reads s e) (hf : Reads s f) : e = f :=
  Option.some.inj ((reads_iff.1 he).symm.trans (reads_iff.1 hf))

/-! ## Texts put together -/

theorem lexing_parts {c : Char} {own : List Lexeme}
    (h : ∀ word, Lexing.step ⟨.outside, word⟩ c = (Lexing.given ⟨.outside, word⟩ ++ own, {})) :
    lexing.Parts c own := by
  rintro ⟨quoting, word⟩ rest hfinish
  have hgiven : (if quoting = .outside then some (Lexing.given ⟨quoting, word⟩) else none) =
    some rest := hfinish
  split_ifs at hgiven with hout
  obtain rfl := Option.some.inj hgiven
  rw [hout]
  exact h word

theorem gathering_parts {x : Lexeme} {own : List (Symbol (List Lexeme))}
    (h : ∀ atom, Gathering.step ⟨atom, 0, false⟩ x = (Gathering.given ⟨atom, 0, false⟩ ++ own, {})) :
    gathering.Parts x own := by
  rintro ⟨atom, depth, range⟩ rest hfinish
  have hgiven : (if depth = 0 ∧ range = false then some (Gathering.given ⟨atom, depth, range⟩)
    else none) = some rest := hfinish
  split_ifs at hgiven with hcomplete
  obtain rfl := Option.some.inj hgiven
  rw [hcomplete.1, hcomplete.2]
  exact h atom

theorem lexing_blank : lexing.Parts ' ' [] := lexing_parts fun _ => (List.append_nil _).symm ▸ rfl

theorem lexing_opening : lexing.Parts '(' [.opening] := lexing_parts fun _ => rfl

theorem lexing_closing : lexing.Parts ')' [.closing] := lexing_parts fun _ => rfl

theorem gathering_and : gathering.Parts (.word "AND".toList) [.conj] := gathering_parts fun _ => rfl

theorem gathering_closing : gathering.Parts .closing [.closing] := gathering_parts fun _ => rfl

variable {us vs : List (Symbol (List Lexeme))}

theorem symbols?_and (hs : symbols? s = some us) (ht : symbols? t = some vs) :
    symbols? (s ++ " AND " ++ t) = some (us ++ .conj :: vs) := by
  obtain ⟨ls, hls, hus⟩ := Option.bind_eq_some_iff.1 hs
  obtain ⟨ms, hms, hvs⟩ := Option.bind_eq_some_iff.1 ht
  have hand : lexing.output? "AND".toList = some [.word "AND".toList] := rfl
  have hword : lexing.output? ("AND".toList ++ ' ' :: t.toList) = some (.word "AND".toList :: ms) :=
    Transducer.run_append_cons lexing_blank hand hms
  have hlex : lexing.output? (s ++ " AND " ++ t).toList =
      some (ls ++ .word "AND".toList :: ms) := by
    rw [String.toList_append, String.toList_append, List.append_assoc]
    exact Transducer.run_append_cons lexing_blank hls hword
  unfold symbols?
  rw [hlex, Option.bind_some]
  exact Transducer.run_append_cons gathering_and hus hvs

theorem symbols?_closing (hs : symbols? s = some us) (ht : symbols? t = some vs) :
    symbols? (s ++ ")" ++ t) = some (us ++ .closing :: vs) := by
  obtain ⟨ls, hls, hus⟩ := Option.bind_eq_some_iff.1 hs
  obtain ⟨ms, hms, hvs⟩ := Option.bind_eq_some_iff.1 ht
  have hlex : lexing.output? (s ++ ")" ++ t).toList = some (ls ++ .closing :: ms) := by
    rw [String.toList_append, String.toList_append, List.append_assoc]
    exact Transducer.run_append_cons lexing_closing hls hms
  unfold symbols?
  rw [hlex, Option.bind_some]
  exact Transducer.run_append_cons gathering_closing hus hvs

/-- A bracket opens a group where no atom stands before it. -/
theorem symbols?_opening (ht : symbols? t = some vs) :
    symbols? ("(" ++ t) = some (.opening :: vs) := by
  obtain ⟨ms, hms, hvs⟩ := Option.bind_eq_some_iff.1 ht
  have hnil : lexing.output? [] = some [] := rfl
  have hlex : lexing.output? ("(" ++ t).toList = some (.opening :: ms) := by
    rw [String.toList_append]
    exact Transducer.run_append_cons lexing_opening hnil hms
  unfold symbols?
  rw [hlex, Option.bind_some]
  show (gathering.output? ms).map ([.opening] ++ ·) = _
  rw [hvs]
  rfl

theorem Reads.and (hs : Reads s e) (ht : Reads t f) : Reads (s ++ " AND " ++ t) (e.meet f) := by
  unfold Reads
  rw [Expression.symbols_meet]
  exact symbols?_and hs ht

theorem Reads.group (hs : Reads s e) : Reads ("(" ++ s ++ ")") e.grouped := by
  have hclosing := symbols?_closing hs (show symbols? "" = some [] from rfl)
  rw [String.append_empty] at hclosing
  have hgroup := symbols?_opening hclosing
  rwa [← String.append_assoc] at hgroup

/-- Connectives in both letter cases, a range, a call and a string that holds a connective. -/
example :
    let word (s : String) : Lexeme := .word s.toList
    Reads "x and (a BETWEEN 1 AND 2 OR f(y)='it OR z')"
      (.conjunction (.and (.primary (.atom [word "x"])) (.group (.or
        (.conjunction (.primary (.atom [word "a", word "BETWEEN", word "1", word "AND", word "2"])))
        (.primary (.atom [word "f", .opening, word "y", .closing, word "=", word "'it OR z'"])))))) := by
  decide +kernel

end SqlStatement
