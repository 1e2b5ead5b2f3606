import SqlStatement.Builder.Compile
import SqlStatement.Proofs.Template

/-!
# Templates without their values

Masking puts one fixed value in place of every value and leaves all else as it is.

* `Template.fill_masked`, `Compiled.run_masked` : filling commutes with masking, so the text and the
  names of the placeholders do not depend on the values.
-/

namespace SqlStatement

/-- The value that stands in place of others. -/
def Value.mask : Value := .int 0

/-! ## Parameters -/

namespace Params

/-- The key of an entry, bound to the mask. -/
def maskEntry (e : ParamKey × Binding) : ParamKey × Binding := (e.1, .value .mask)

theorem key?_maskEntry (e : ParamKey × Binding) : HasKey.key? (maskEntry e) = HasKey.key? e := rfl

def masked (ps : Params) : Params where
  entries := ps.entries.map maskEntry
  nodup := by
    rw [Entries.keys_map key?_maskEntry]
    exact ps.nodup

theorem keys_masked (ps : Params) : ps.masked.keys = ps.keys := by
  unfold keys masked
  rw [List.map_map]
  rfl

theorem masked_masked (ps : Params) : ps.masked.masked = ps.masked := by
  apply Params.ext
  exact List.map_map

theorem size_masked (ps : Params) : ps.masked.size = ps.size := List.length_map _

theorem contains_masked (ps : Params) (key : ParamKey) :
    ps.masked.contains key = ps.contains key := by
  rw [Bool.eq_iff_iff, contains_iff, contains_iff, keys_masked]

theorem set_masked (ps : Params) (key : ParamKey) (v : Value) :
    (ps.set key v).masked = ps.masked.set key .mask := by
  apply Params.ext
  exact Entries.map_insert key?_maskEntry ps.entries (key, Binding.value v)

theorem merge_masked (ps qs : Params) : (ps.merge qs).masked = ps.masked.merge qs.masked := by
  apply Params.ext
  exact Entries.map_merge key?_maskEntry ps.entries qs.entries

end Params

/-! ## Placing -/

namespace Placement

def masked (p : Placement) : Placement := ⟨p.next, p.params.masked⟩

theorem firstFree_masked (ps : Params) (tries n : Nat) :
    firstFree ps.masked tries n = firstFree ps tries n := by
  induction tries generalizing n with
  | zero => rfl
  | succ tries ih =>
    unfold firstFree
    rw [Params.contains_masked, ih]

theorem free_masked (p : Placement) : p.masked.free = p.free := by
  unfold free masked
  rw [firstFree_masked, Params.size_masked]

/-- Which placeholder a value gets does not depend on the value, nor on those before it. -/
theorem place_masked (p : Placement) (v : Value) :
    p.masked.place .mask = ((p.place v).1, (p.place v).2.masked) := by
  unfold place
  rw [free_masked]
  show _ = (placeholder p.free, Placement.mk (p.free + 1) (p.params.set _ v).masked)
  rw [Params.set_masked]
  rfl

theorem join_masked (p : Placement) (ps : Params) :
    p.masked.join ps.masked = (p.join ps).masked := by
  show Placement.mk p.next (p.params.masked.merge ps.masked) = ⟨p.next, (p.params.merge ps).masked⟩
  rw [Params.merge_masked]

end Placement

/-! ## Templates -/

def Piece.masked : Piece → Piece
  | text s => text s
  | value _ => value .mask
  | params ps => params ps.masked

namespace Template

def masked (t : Template) : Template := t.map Piece.masked

theorem masked_cons (piece : Piece) (t : Template) :
    masked (piece :: t) = piece.masked :: masked t := rfl

theorem masked_append (t u : Template) : masked (t ++ u) = masked t ++ masked u :=
  List.map_append

theorem hasText_masked (t : Template) : hasText (masked t) = hasText t := by
  unfold hasText masked
  rw [List.any_map]
  refine congrArg t.any (funext fun piece => ?_)
  cases piece with
  | text s => rfl
  | value v => rfl
  | params ps => rfl

theorem masked_joinWith (sep : String) (ts : List Template) :
    masked (joinWith sep ts) = joinWith sep (ts.map masked) := by
  induction ts with
  | nil => rfl
  | cons t ts ih =>
    cases ts with
    | nil => rfl
    | cons u us =>
      show masked (t ++ .text sep :: joinWith sep (u :: us)) = _
      rw [masked_append, masked_cons, ih]
      rfl

theorem masked_joinWith_filter (sep : String) (ts : List Template) :
    masked (joinWith sep (ts.filter hasText)) = joinWith sep ((ts.map masked).filter hasText) := by
  have hcomp : hasText ∘ masked = hasText := funext hasText_masked
  rw [masked_joinWith, List.filter_map, hcomp]

/-- The text is the same and the bindings differ in their values only. -/
theorem fill_masked (t : Template) (p : Placement) :
    fill (masked t) p.masked = ((fill t p).1, (fill t p).2.masked) := by
  induction t generalizing p with
  | nil => rfl
  | cons piece t ih =>
    rw [masked_cons]
    cases piece with
    | text s =>
      show fill (.text s :: masked t) p.masked = _
      rw [fill_text, fill_text, ih]
    | value v =>
      show fill (.value .mask :: masked t) p.masked = _
      have hname : (p.masked.place .mask).1 = (p.place v).1 := by rw [Placement.place_masked]
      have hrest : (p.masked.place .mask).2 = (p.place v).2.masked := by rw [Placement.place_masked]
      rw [fill_value, fill_value, hrest, ih, Placement.free_masked]
    | params ps =>
      show fill (.params ps.masked :: masked t) p.masked = _
      rw [fill_params, fill_params, Placement.join_masked, ih]

end Template

/-! ## Compiling -/

namespace Compiled

def masked : Compiled → Compiled
  | .ok t => .ok t.masked
  | .error f => .error ⟨f.written.masked, f.error⟩

theorem masked_after (t : Template) (c : Compiled) :
    masked (after t c) = after t.masked c.masked := by
  cases c with
  | ok u =>
    show Except.ok (Template.masked (t ++ u)) = _
    rw [Template.masked_append]
    rfl
  | error f =>
    show Except.error (Failure.mk (Template.masked (t ++ f.written)) f.error) = _
    rw [Template.masked_append]
    rfl

theorem masked_append (c d : Compiled) : masked (c ++ d) = c.masked ++ d.masked := by
  cases c with
  | ok t => exact masked_after t d
  | error f => rfl

theorem masked_lead (s : String) (c : Compiled) : masked (lead s c) = lead s c.masked := by
  cases c with
  | ok t =>
    show Except.ok (Template.masked (if t.hasText then .text s :: t else t)) =
      Except.ok (if t.masked.hasText then .text s :: t.masked else t.masked)
    rw [Template.hasText_masked]
    split
    next => rfl
    next => rfl
  | error f => rfl

theorem masked_map {f g : Template → Template} (h : ∀ t, (f t).masked = g t.masked)
    (c : Compiled) : masked (c.map f) = c.masked.map g := by
  cases c with
  | ok t => exact congrArg Except.ok (h t)
  | error e => rfl

theorem masked_joinWith (sep : String) (cs : List Compiled) :
    masked (joinWith sep cs) = joinWith sep (cs.map masked) := by
  induction cs with
  | nil => rfl
  | cons c cs ih =>
    cases cs with
    | nil => rfl
    | cons d ds =>
      show masked (c ++ after [.text sep] (joinWith sep (d :: ds))) = _
      rw [masked_append, masked_after, ih]
      rfl

theorem run_masked (c : Compiled) (p : Placement) :
    c.masked.run p.masked = ((c.run p).1, (c.run p).2.masked) := by
  cases c with
  | ok t =>
    show (Except.ok (t.masked.fill p.masked).1, (t.masked.fill p.masked).2) = _
    rw [Template.fill_masked]
    rfl
  | error f =>
    show (Except.error f.error, (f.written.masked.fill p.masked).2) = _
    rw [Template.fill_masked]
    rfl

/-- What differs in values only runs to what differs in values only. -/
theorem run_congr {c d : Compiled} {p q : Placement} (hc : c.masked = d.masked)
    (hp : p.masked = q.masked) :
    (c.run p).1 = (d.run q).1 ∧ (c.run p).2.masked = (d.run q).2.masked := by
  have h := run_masked c p
  rw [hc, hp, run_masked, Prod.mk.injEq] at h
  exact ⟨h.1.symm, h.2.symm⟩

end Compiled

end SqlStatement
