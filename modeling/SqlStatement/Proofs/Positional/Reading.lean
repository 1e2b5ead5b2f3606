import SqlStatement.Builder.Compile
import SqlStatement.Driver.Placeholder
import SqlStatement.Proofs.Template
import SqlStatement.Proofs.Text

/-!
# Reading back what has been placed

A filled template is read by a driver that knows nothing of templates. It finds the placeholders
again, and nothing else, when the texts around them hold no mark of their own: each text brings the
reading back outside quotes without a placeholder, and no text right after a placeholder goes on with
its name.

* `Inert` : texts that are read without a placeholder;
* `Template.Readable`, `Template.Closed` : what the texts of a template need;
* `Template.order_fill` : the placeholders that are found are those that have been placed.
-/

namespace SqlStatement

open Placement

/-! ## Texts -/

/-- A character without meaning for the reading of placeholders. -/
def isPlain (c : Char) : Bool := !isQuoteMark c && c != '\\' && c != '?' && c != ':'

/-- Reading the text from outside quotes finds no placeholder and ends outside quotes. -/
def Inert (s : String) : Prop :=
  ∀ n rest, Token.keysFrom n (tokens (.outside false) (s.toList ++ rest)) =
    Token.keysFrom n (tokens (.outside false) rest)

theorem Inert.append {s t : String} (hs : Inert s) (ht : Inert t) : Inert (s ++ t) := by
  intro n rest
  rw [String.toList_append, List.append_assoc, hs, ht]

theorem keysFrom_plain {c : Char} (hc : isPlain c = true) (n : Nat) (cs : List Char) :
    Token.keysFrom n (tokens (.outside false) (c :: cs)) =
      Token.keysFrom n (tokens (.outside false) cs) := by
  simp only [isPlain, Bool.and_eq_true, Bool.not_eq_true', bne_iff_ne] at hc
  obtain ⟨⟨⟨hquote, -⟩, hmark⟩, hcolon⟩ := hc
  have hread : readOutside false c cs.head? = ([.plain c], .outside false) := by
    simp [readOutside, hquote, hmark, hcolon]
  rw [tokens, hread]
  rfl

def PlainText (s : String) : Prop := ∀ c ∈ s.toList, isPlain c = true

instance : DecidablePred PlainText := fun s =>
  List.decidableBAll (fun c => isPlain c = true) s.toList

theorem plainText_append {s t : String} : PlainText (s ++ t) ↔ PlainText s ∧ PlainText t := by
  simp only [PlainText, String.toList_append, List.mem_append, or_imp, forall_and]

theorem PlainText.inert {s : String} (hs : PlainText s) : Inert s := by
  intro n rest
  unfold PlainText at hs
  generalize s.toList = cs at hs ⊢
  induction cs with
  | nil => rfl
  | cons c cs ih =>
    have hcs := ih fun b hb => hs b (List.mem_cons_of_mem c hb)
    rw [List.cons_append, keysFrom_plain (hs c List.mem_cons_self), hcs]

/-- Between backticks a backslash protects nothing. -/
theorem keysFrom_inside {cs : List Char} (hcs : ∀ c ∈ cs, c ≠ '\x60') (n : Nat)
    (rest : List Char) :
    Token.keysFrom n (tokens (.inside '\x60') (cs ++ '\x60' :: rest)) =
      Token.keysFrom n (tokens (.outside false) rest) := by
  induction cs with
  | nil => rfl
  | cons c cs ih =>
    have hread : readInside '\x60' c = .inside '\x60' := by
      simp [readInside, hcs c List.mem_cons_self]
    rw [List.cons_append, tokens, hread]
    exact ih fun b hb => hcs b (List.mem_cons_of_mem c hb)

/-- A quoted text that holds no backtick is read to its end. -/
theorem inert_quoted {s : String} (hs : ∀ c ∈ s.toList, c ≠ '\x60') :
    Inert ("\x60" ++ s ++ "\x60") := by
  intro n rest
  have hinside := keysFrom_inside hs n rest
  rw [String.toList_append, String.toList_append, List.append_assoc, List.append_assoc]
  show Token.keysFrom n (.quoted '\x60' :: tokens (.inside '\x60') (s.toList ++ '\x60' :: rest)) = _
  exact hinside

/-! ## Placeholders -/

/-- A text that cannot go on with a name right before it. -/
def Apart (cs : List Char) : Prop := ∀ c ∈ cs.head?, continuesName c = false

/-- A text that ends a name before it, whatever comes afterwards. -/
structure Divides (s : String) : Prop where
  inert : Inert s
  ne : s ≠ ""
  apart : Apart s.toList

theorem Divides.append {s t : String} (hs : Divides s) (ht : Inert t) : Divides (s ++ t) := by
  have hne : s.toList ≠ [] := fun hnil => hs.ne (String.toList_eq_nil_iff.1 hnil)
  refine ⟨hs.inert.append ht, ?_, ?_⟩
  · intro hnil
    have happend := congrArg String.toList hnil
    rw [String.toList_append] at happend
    exact hne (List.append_eq_nil_iff.1 happend).1
  · unfold Apart
    rw [String.toList_append, List.head?_append_of_ne_nil _ hne]
    exact hs.apart

theorem tokens_naming (name : List Char) {cs : List Char} (hcs : Apart cs) :
    tokens (.naming name) cs = .named name :: tokens (.outside false) cs := by
  rcases cs with _ | ⟨c, cs⟩
  · rfl
  · have hc : continuesName c = false := hcs c rfl
    rw [tokens, tokens, hc]
    rfl

theorem tokens_continuing (name : List Char) {digits : List Char}
    (hdigits : ∀ c ∈ digits, continuesName c = true) (rest : List Char) :
    tokens (.naming name) (digits ++ rest) = tokens (.naming (name ++ digits)) rest := by
  induction digits generalizing name with
  | nil => rw [List.nil_append, List.append_nil]
  | cons c digits ih =>
    have hrest := ih (name ++ [c]) fun b hb => hdigits b (List.mem_cons_of_mem c hb)
    rw [List.cons_append, tokens, if_pos (hdigits c List.mem_cons_self), hrest, List.append_assoc]
    rfl

theorem continuesName_of_isDigit {c : Char} (hc : c.isDigit = true) : continuesName c = true := by
  simp [continuesName, Char.isAlphanum, hc]

theorem toList_placeholder (n : Nat) :
    (placeholder n).toList = [':', 'd', 'y'] ++ (toString n).toList := by
  unfold placeholder
  rw [String.toList_append]
  rfl

theorem tokens_placeholder (n : Nat) {rest : List Char} (hrest : Apart rest) :
    tokens (.outside false) ((placeholder n).toList ++ rest) =
      .named (placeholder n).toList :: tokens (.outside false) rest := by
  rw [← tokens_naming _ hrest, toList_placeholder, List.append_assoc,
    ← tokens_continuing [':', 'd', 'y'] fun c hc => continuesName_of_isDigit (Text.isDigit_of_mem_toString hc)]
  rfl

/-! ## Templates -/

namespace Template

/-- Right after a placeholder, the text of the template does not go on with its name. -/
def Closed : Template → Prop
  | [] => True
  | .text s :: t => if s = "" then Closed t else Apart s.toList
  | .value _ :: _ => True
  | .params _ :: t => Closed t

/-- The texts are inert, and those after values keep apart from the placeholder before. -/
def Readable : Template → Prop
  | [] => True
  | .text s :: t => Inert s ∧ Readable t
  | .value _ :: t => Closed t ∧ Readable t
  | .params _ :: t => Readable t

variable {t u : Template} {s : String}

theorem apart_fill (ht : t.Closed) (p : Placement) : Apart (t.fill p).1.toList := by
  induction t generalizing p with
  | nil =>
    intro c hc
    cases hc
  | cons piece t ih =>
    rcases piece with s | v | ps
    · rw [fill_text, String.toList_append]
      unfold Closed at ht
      by_cases hs : s = ""
      · rw [if_pos hs] at ht
        rw [hs]
        exact ih ht p
      · rw [if_neg hs] at ht
        have hne : s.toList ≠ [] := fun hnil => hs (String.toList_eq_nil_iff.1 hnil)
        unfold Apart
        rw [List.head?_append_of_ne_nil _ hne]
        exact ht
    · rw [fill_value, String.toList_append, toList_placeholder]
      intro c hc
      cases hc
      decide
    · exact ih ht (p.join ps)

/-- Reading a filled template finds what has been placed, in order. -/
theorem order_fill (ht : t.Readable) (n : Nat) (p : Placement) :
    Token.keysFrom n (tokens (.outside false) (t.fill p).1.toList) =
      (t.placements p).map fun e => generated e.1 := by
  induction t generalizing p with
  | nil => rfl
  | cons piece t ih =>
    rcases piece with s | v | ps
    · obtain ⟨hs, ht⟩ := ht
      rw [fill_text, String.toList_append, hs]
      exact ih ht p
    · obtain ⟨hclosed, ht⟩ := ht
      rw [fill_value, String.toList_append, tokens_placeholder _ (apart_fill hclosed _)]
      show _ :: _ = _ :: _
      rw [ih ht, String.ofList_toList]
      rfl
    · exact ih ht (p.join ps)

/-! ## Building templates -/

theorem closed_of_divides (hs : Divides s) (t : Template) : Closed (.text s :: t) := by
  unfold Closed
  rw [if_neg hs.ne]
  exact hs.apart

theorem Closed.append (ht : t.Closed) (hu : u.Closed) : (t ++ u).Closed := by
  induction t with
  | nil => exact hu
  | cons piece t ih =>
    rcases piece with s | v | ps
    · rw [List.cons_append]
      unfold Closed at ht ⊢
      by_cases hs : s = ""
      · rw [if_pos hs] at ht ⊢
        exact ih ht
      · rw [if_neg hs] at ht ⊢
        exact ht
    · trivial
    · exact ih ht

theorem Readable.append (ht : t.Readable) (hu : u.Readable) (hclosed : u.Closed) :
    (t ++ u).Readable := by
  induction t with
  | nil => exact hu
  | cons piece t ih =>
    rcases piece with s | v | ps
    · exact ⟨ht.1, ih ht.2⟩
    · exact ⟨ht.1.append hclosed, ih ht.2⟩
    · exact ih ht

theorem readable_joinWith {sep : String} (hsep : Divides sep) {ts : List Template}
    (h : ∀ t ∈ ts, t.Readable) : (joinWith sep ts).Readable := by
  induction ts with
  | nil => trivial
  | cons t ts ih =>
    have ht := h t List.mem_cons_self
    have hts := ih fun u hu => h u (List.mem_cons_of_mem t hu)
    rcases ts with _ | ⟨u, us⟩
    · exact ht
    · exact ht.append ⟨hsep.inert, hts⟩ (closed_of_divides hsep _)

/-- A template that writes nothing changes nothing for what comes after it. -/
theorem closed_of_not_hasText {t : Template} (h : t.hasText = false) : t.Closed := by
  induction t with
  | nil => trivial
  | cons piece t ih =>
    have hpiece : writes piece = false ∧ hasText t = false := by
      simpa [hasText] using h
    rcases piece with s | v | ps
    · have hs : s = "" := by simpa [writes] using hpiece.1
      unfold Closed
      rw [if_pos hs]
      exact ih hpiece.2
    · cases hpiece.1
    · exact ih hpiece.2

end Template

/-! ## Compiling -/

namespace Compiled

open Template

def Readable (c : Compiled) : Prop := ∀ t, c = .ok t → t.Readable

def Closed (c : Compiled) : Prop := ∀ t, c = .ok t → t.Closed

variable {c d : Compiled} {s : String}

theorem readable_ok {t : Template} (h : t.Readable) : Readable (.ok t) := by
  rintro _ ⟨⟩
  exact h

theorem closed_ok {t : Template} (h : t.Closed) : Closed (.ok t) := by
  rintro _ ⟨⟩
  exact h

theorem readable_fail (e : Error) : (fail e).Readable := by
  rintro _ ⟨⟩

theorem readable_text (hs : Inert s) : (text s).Readable := readable_ok ⟨hs, trivial⟩

theorem closed_text (hs : Divides s) : (text s).Closed := closed_ok (closed_of_divides hs [])

theorem Readable.after_nil (hc : c.Readable) : (after [] c).Readable := by
  intro w hw
  obtain ⟨u, hu, rfl⟩ := after_eq_ok hw
  exact hc _ hu

theorem closed_after_nil (hc : c.Closed) : (after [] c).Closed := by
  intro w hw
  obtain ⟨u, hu, rfl⟩ := after_eq_ok hw
  exact hc _ hu

theorem Readable.after_params {ps : Params} (hc : c.Readable) :
    (after [.params ps] c).Readable := by
  intro w hw
  obtain ⟨u, hu, rfl⟩ := after_eq_ok hw
  exact hc u hu

theorem Readable.append (hc : c.Readable) (hd : d.Readable) (hclosed : d.Closed) :
    (c ++ d).Readable := by
  intro w hw
  obtain ⟨t, u, ht, hu, rfl⟩ := append_eq_ok hw
  exact (hc t ht).append (hd u hu) (hclosed u hu)

theorem Closed.append (hc : c.Closed) (hd : d.Closed) : (c ++ d).Closed := by
  intro w hw
  obtain ⟨t, u, ht, hu, rfl⟩ := append_eq_ok hw
  exact (hc t ht).append (hd u hu)

theorem Readable.text_append (hs : Inert s) (hd : d.Readable) : (text s ++ d).Readable := by
  intro w hw
  obtain ⟨t, u, ht, hu, rfl⟩ := append_eq_ok hw
  cases ht
  exact ⟨hs, hd u hu⟩

theorem Readable.append_text (hc : c.Readable) (hs : Divides s) (hd : d.Readable) :
    (c ++ text s ++ d).Readable := by
  intro w hw
  obtain ⟨v, u, hv, hu, rfl⟩ := append_eq_ok hw
  obtain ⟨t, t', ht, ht', rfl⟩ := append_eq_ok hv
  cases ht'
  rw [List.append_assoc]
  exact (hc t ht).append ⟨hs.inert, hd u hu⟩ (closed_of_divides hs u)

theorem closed_text_append (hs : Divides s) (d : Compiled) : (text s ++ d).Closed := by
  intro w hw
  obtain ⟨t, u, ht, -, rfl⟩ := append_eq_ok hw
  cases ht
  exact closed_of_divides hs u

theorem Readable.lead (hs : Inert s) (hc : c.Readable) : (lead s c).Readable := by
  rcases c with f | t
  · rintro _ ⟨⟩
  · have ht := hc t rfl
    rintro _ ⟨⟩
    by_cases htext : t.hasText = true
    · rw [if_pos htext]
      exact ⟨hs, ht⟩
    · rw [if_neg htext]
      exact ht

theorem closed_lead (hs : Divides s) (c : Compiled) : (lead s c).Closed := by
  rcases c with f | t
  · rintro _ ⟨⟩
  · rintro _ ⟨⟩
    by_cases htext : t.hasText = true
    · rw [if_pos htext]
      exact closed_of_divides hs t
    · rw [if_neg htext]
      exact closed_of_not_hasText (by simpa using htext)

theorem Readable.map {f : Template → Template} (hc : c.Readable)
    (hf : ∀ t, t.Readable → (f t).Readable) : Readable (c.map f) := by
  rcases c with e | t
  · rintro _ ⟨⟩
  · exact readable_ok (hf t (hc t rfl))

theorem readable_joinWith {sep : String} (hsep : Divides sep) {cs : List Compiled}
    (h : ∀ c ∈ cs, c.Readable) : (joinWith sep cs).Readable := by
  induction cs with
  | nil => exact readable_ok trivial
  | cons c cs ih =>
    have hc := h c List.mem_cons_self
    have hcs := ih fun d hd => h d (List.mem_cons_of_mem c hd)
    rcases cs with _ | ⟨d, ds⟩
    · exact hc
    · exact hc.append (Readable.text_append hsep.inert hcs) (closed_text_append hsep _)

end Compiled

end SqlStatement
