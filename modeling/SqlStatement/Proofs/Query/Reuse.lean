import SqlStatement.Proofs.Driver
import SqlStatement.Proofs.Params
import SqlStatement.Query.Fetch

/-!
# Reusing a prepared statement

A query keeps its prepared statement for further runs and binds again only what is read from slots.
All that is bound to a value must therefore be bound in the statement already.

* `Bound`, `Query.Synced` : what holds of the bindings of a statement that is kept;
* `Query.ensurePrepared_ok`, `Query.run_ran` : a statement that is ready has the current values, and
  a run records them or nothing.
-/

namespace SqlStatement

/-- A parameter as it is bound now. -/
def boundNow (slots : Slots) (e : ParamKey × Binding) : BoundParam := .of e.1 (e.2.current slots)

/-- The execution that the text and the parameters of the query ask for now. -/
def Query.record (q : Query) (slots : Slots) : Execution :=
  ⟨q.sql, q.params.entries.map (boundNow slots)⟩

/-- A parameter of a kept statement: bound under its key, and to its value if it has one. -/
def Bound (e : ParamKey × Binding) (p : BoundParam) : Prop :=
  p.key = e.1 ∧ ∀ v, e.2 = .value v → p = .of e.1 v

theorem key?_eq_of_bound (e : ParamKey × Binding) (p : BoundParam) (h : Bound e p) :
    HasKey.key? e = HasKey.key? p :=
  congrArg some h.1.symm

theorem key?_boundNow (slots : Slots) (e : ParamKey × Binding) :
    HasKey.key? (boundNow slots e) = HasKey.key? e := rfl

theorem bound_boundNow (slots : Slots) (e : ParamKey × Binding) : Bound e (boundNow slots e) := by
  refine ⟨rfl, fun v hv => ?_⟩
  unfold boundNow
  rw [hv]
  rfl

/-- A parameter that is not read from a slot is bound to what it is now. -/
theorem eq_boundNow {e : ParamKey × Binding} {p : BoundParam} (h : Bound e p)
    (hslot : e.2.isSlot = false) (slots : Slots) : p = boundNow slots e := by
  obtain ⟨key, binding⟩ := e
  cases binding with
  | value v => exact h.2 v rfl
  | slot id => cases hslot
  | integerSlot id => cases hslot

/-- Once what is read from slots has been bound again, all parameters are bound to what they are
now. -/
theorem merge_slots (slots : Slots) {es : List (ParamKey × Binding)} {bs : List BoundParam}
    (h : List.Forall₂ Bound es bs) (hn : (Entries.keys es).Nodup) :
    Entries.merge bs ((es.filter (·.2.isSlot)).map (boundNow slots)) =
      es.map (boundNow slots) := by
  induction h with
  | nil => rfl
  | @cons e p es bs hep hes ih =>
    have hkeys : Entries.keys (e :: es) = e.1 :: Entries.keys es := rfl
    rw [hkeys, List.nodup_cons] at hn
    have hother : ∀ f ∈ (es.filter (·.2.isSlot)).map (boundNow slots),
        ∃ k, HasKey.key? f = some k ∧ HasKey.key? (boundNow slots e) ≠ some k := by
      intro f hf
      obtain ⟨e', he', rfl⟩ := List.mem_map.1 hf
      refine ⟨e'.1, rfl, fun hk => hn.1 ?_⟩
      have heq : e.1 = e'.1 := Option.some.inj hk
      rw [heq]
      exact Entries.mem_keys.2 ⟨e', (List.mem_filter.1 he').1, rfl⟩
    have hrest := ih hn.2
    -- the others have other keys, so what is bound again for them passes the first by
    cases hslot : e.2.isSlot with
    | true =>
      have hkey : HasKey.key? p = some e.1 := (key?_eq_of_bound e p hep).symm
      have hfilter : (e :: es).filter (·.2.isSlot) = e :: es.filter (·.2.isSlot) :=
        List.filter_cons_of_pos hslot
      rw [hfilter, List.map_cons, List.map_cons, Entries.merge_cons,
        Entries.insert_cons_self hkey rfl, Entries.merge_cons_of_ne hother, hrest]
    | false =>
      have hfilter : (e :: es).filter (·.2.isSlot) = es.filter (·.2.isSlot) :=
        List.filter_cons_of_neg (by rw [hslot]; exact Bool.false_ne_true)
      rw [hfilter, List.map_cons, eq_boundNow hep hslot slots,
        Entries.merge_cons_of_ne hother, hrest]

/-! ## Binding one parameter after the other -/

open Driver

theorem bindAll_quiet (d : Driver) (h : HandleId) (es : List (ParamKey × Binding)) :
    Quiet d (bindAll d h es).2 := by
  induction es generalizing d with
  | nil => exact Quiet.refl d
  | cons e es ih =>
    have hbind := bind_quiet d h (.of e.1 (e.2.current d.slots))
    unfold bindAll
    cases hb : d.bind h (.of e.1 (e.2.current d.slots)) with
    | mk result d' =>
      rw [hb] at hbind
      cases result with
      | error err => exact hbind
      | ok u => exact hbind.trans (ih d')

theorem holds_bindAll {d d' : Driver} {h : HandleId} {c : ConnectionId} {sql : String}
    {bs : List BoundParam} {es : List (ParamKey × Binding)} (hd : d.Holds h c sql bs)
    (hb : bindAll d h es = (.ok (), d')) :
    d'.Holds h c sql (Entries.merge bs (es.map (boundNow d.slots))) := by
  induction es generalizing d bs with
  | nil =>
    cases hb
    exact hd
  | cons e es ih =>
    have hquiet := bind_quiet d h (.of e.1 (e.2.current d.slots))
    unfold bindAll at hb
    cases he : d.bind h (.of e.1 (e.2.current d.slots)) with
    | mk result d₁ =>
      rw [he] at hb hquiet
      cases result with
      | error err => cases hb
      | ok u =>
        have hrest := ih (holds_bind hd he) hb
        rw [hquiet.slots] at hrest
        exact hrest

theorem bindAll_willing {d : Driver} {h : HandleId} {c : ConnectionId} {sql : String}
    {bs : List BoundParam} {keys : List ParamKey} {es : List (ParamKey × Binding)}
    (hw : d.Willing c keys) (hd : d.Holds h c sql bs) (hes : ∀ e ∈ es, e.1 ∈ keys) :
    (bindAll d h es).1 = .ok () := by
  induction es generalizing d bs with
  | nil => rfl
  | cons e es ih =>
    have hquiet := bind_quiet d h (.of e.1 (e.2.current d.slots))
    have hkey : (BoundParam.of e.1 (e.2.current d.slots)).key ∈ keys := hes e List.mem_cons_self
    have hok := hw.bind hd hkey
    unfold bindAll
    cases he : d.bind h (.of e.1 (e.2.current d.slots)) with
    | mk result d₁ =>
      rw [he] at hquiet hok
      cases result with
      | error err => cases hok
      | ok u =>
        exact ih (hquiet.willing hw) (holds_bind hd he) fun e' he' =>
          hes e' (List.mem_cons_of_mem e he')

namespace Query

/-- A kept statement was prepared from the query's text on the connection of the last run, and its
parameters are bound in the order of the query's. -/
def Synced (q : Query) (d : Driver) : Prop :=
  ∀ h, q.handle = some h → ∃ c bs, q.lastConnection = some c ∧ d.Holds h c q.sql bs ∧
    List.Forall₂ Bound q.params.entries bs

structure Kept (q q' : Query) : Prop where
  sql : q'.sql = q.sql
  params : q'.params = q.params
  connection : q'.connection = q.connection

theorem Kept.refl (q : Query) : Kept q q := ⟨rfl, rfl, rfl⟩

theorem Kept.trans {q₁ q₂ q₃ : Query} (h : Kept q₁ q₂) (h' : Kept q₂ q₃) : Kept q₁ q₃ :=
  ⟨h'.sql.trans h.sql, h'.params.trans h.params, h'.connection.trans h.connection⟩

theorem synced_of_none {q : Query} {d : Driver} (h : q.handle = none) : q.Synced d := by
  intro g hg
  rw [h] at hg
  cases hg

/-! ## Getting a statement ready -/

variable {q q' : Query} {d d' : Driver} {c : ConnectionId} {h : HandleId}

theorem close_spec (q : Query) (d : Driver) :
    Kept q (q.close d).1 ∧ Quiet d (q.close d).2 ∧ (q.close d).1.handle = none := by
  unfold close
  cases hh : q.handle with
  | none => exact ⟨Kept.refl q, Quiet.refl d, hh⟩
  | some h => exact ⟨⟨rfl, rfl, rfl⟩, closeCursor_quiet d h, rfl⟩

theorem leave_spec (hs : q.Synced d) (c : ConnectionId) :
    Kept q (q.leave d c).1 ∧ Quiet d (q.leave d c).2 ∧ (q.leave d c).1.Synced (q.leave d c).2 ∧
      ∀ h, (q.leave d c).1.handle = some h → (q.leave d c).1.lastConnection = some c := by
  unfold leave
  split
  next hlast =>
    refine ⟨Kept.refl q, Quiet.refl d, hs, fun h hh => ?_⟩
    obtain ⟨_, _, hlast', _⟩ := hs h hh
    rw [hlast] at hlast'
    cases hlast'
  next last hlast =>
    split
    next hc =>
      refine ⟨Kept.refl q, Quiet.refl d, hs, fun h _ => ?_⟩
      rw [hlast, hc]
    next =>
      obtain ⟨hkept, hquiet, hnone⟩ := q.close_spec d
      refine ⟨hkept, hquiet, synced_of_none hnone, fun h hh => ?_⟩
      rw [hnone] at hh
      cases hh

/-- A statement with the query's text, prepared on the connection, whose parameters are all bound to
what they are now. -/
def Ready (q : Query) (d : Driver) (c : ConnectionId) (h : HandleId) : Prop :=
  d.Holds h c q.sql (q.params.entries.map (boundNow d.slots))

theorem reuse_error {e : Error} (hr : q.reuse d h = (.error e, q', d')) :
    Kept q q' ∧ Quiet d d' ∧ q'.handle = none := by
  have hclose := closeCursor_quiet d h
  have hbind := bindAll_quiet (d.closeCursor h) h (q.params.entries.filter (·.2.isSlot))
  unfold reuse at hr
  split at hr
  next e d₁ hb =>
    rw [hb] at hbind
    cases hr
    exact ⟨⟨rfl, rfl, rfl⟩, (hclose.trans hbind).trans (closeCursor_quiet d₁ h), rfl⟩
  next => cases hr

theorem reuse_ok {g : HandleId} {bs : List BoundParam} (hd : d.Holds h c q.sql bs)
    (hbs : List.Forall₂ Bound q.params.entries bs) (hr : q.reuse d h = (.ok g, q', d')) :
    g = h ∧ q' = q ∧ Quiet d d' ∧ q.Ready d' c h := by
  have hclose := closeCursor_quiet d h
  have hbind := bindAll_quiet (d.closeCursor h) h (q.params.entries.filter (·.2.isSlot))
  unfold reuse at hr
  split at hr
  next => cases hr
  next d₁ hb =>
    rw [hb] at hbind
    cases hr
    have hquiet := hclose.trans hbind
    have hholds := holds_bindAll (holds_closeCursor hd h) hb
    rw [hclose.slots, merge_slots d.slots hbs q.params.nodup] at hholds
    refine ⟨rfl, rfl, hquiet, ?_⟩
    unfold Ready
    rw [hquiet.slots]
    exact hholds

theorem prepareOn_error {e : Error} (hp : q.prepareOn d c = (.error e, q', d')) :
    q' = q ∧ Quiet d d' := by
  have hprepare := prepare_quiet d c q.sql
  unfold prepareOn at hp
  split at hp
  next e d₁ he =>
    rw [he] at hprepare
    cases hp
    exact ⟨rfl, hprepare⟩
  next h d₁ hh =>
    rw [hh] at hprepare
    have hbind := bindAll_quiet d₁ h q.params.entries
    split at hp
    next e d₂ he =>
      rw [he] at hbind
      cases hp
      exact ⟨rfl, (hprepare.trans hbind).trans (closeCursor_quiet d₂ h)⟩
    next => cases hp

theorem prepareOn_ok (hp : q.prepareOn d c = (.ok h, q', d')) :
    q' = { q with lastConnection := some c, handle := some h } ∧ Quiet d d' ∧
      q.Ready d' c h := by
  have hprepare := prepare_quiet d c q.sql
  unfold prepareOn at hp
  split at hp
  next => cases hp
  next h d₁ hh =>
    rw [hh] at hprepare
    have hbind := bindAll_quiet d₁ h q.params.entries
    split at hp
    next => cases hp
    next d₂ hb =>
      rw [hb] at hbind
      cases hp
      have hquiet := hprepare.trans hbind
      have hholds := holds_bindAll (holds_prepare hh) hb
      have hn : (Entries.keys ([] ++ q.params.entries.map (boundNow d₁.slots))).Nodup := by
        rw [List.nil_append, Entries.keys_map (key?_boundNow d₁.slots)]
        exact q.params.nodup
      rw [Entries.merge_eq_append hn, List.nil_append, hprepare.slots] at hholds
      refine ⟨rfl, hquiet, ?_⟩
      unfold Ready
      rw [hquiet.slots]
      exact hholds

theorem ensurePrepared_eq (hc : q.connection = some c) :
    q.ensurePrepared d =
      match (q.leave d c).1.handle with
      | some h => (q.leave d c).1.reuse (q.leave d c).2 h
      | none => (q.leave d c).1.prepareOn (q.leave d c).2 c := by
  obtain ⟨sql, params, option, connection, last, handle⟩ := q
  cases hc
  rfl

theorem ensurePrepared_error {e : Error} (hs : q.Synced d)
    (he : q.ensurePrepared d = (.error e, q', d')) : Kept q q' ∧ Quiet d d' ∧ q'.Synced d' := by
  cases hc : q.connection with
  | none =>
    unfold ensurePrepared at he
    rw [hc] at he
    cases he
    exact ⟨Kept.refl q, Quiet.refl d, hs⟩
  | some c =>
    obtain ⟨hkept, hquiet, hsynced, -⟩ := leave_spec hs c
    rw [ensurePrepared_eq hc] at he
    split at he
    next h hh =>
      obtain ⟨hkept', hquiet', hnone⟩ := reuse_error he
      exact ⟨hkept.trans hkept', hquiet.trans hquiet', synced_of_none hnone⟩
    next hh =>
      obtain ⟨rfl, hquiet'⟩ := prepareOn_error he
      exact ⟨hkept, hquiet.trans hquiet', synced_of_none hh⟩

theorem Kept.ready (hk : Kept q q') : q'.Ready d c h ↔ q.Ready d c h := by
  unfold Ready
  rw [hk.sql, hk.params]

theorem ensurePrepared_ok (hs : q.Synced d) (he : q.ensurePrepared d = (.ok h, q', d')) :
    Kept q q' ∧ Quiet d d' ∧ ∃ c, q.connection = some c ∧ q'.handle = some h ∧
      q'.lastConnection = some c ∧ q.Ready d' c h := by
  cases hc : q.connection with
  | none =>
    unfold ensurePrepared at he
    rw [hc] at he
    cases he
  | some c =>
    obtain ⟨hkept, hquiet, hsynced, hlast⟩ := leave_spec hs c
    rw [ensurePrepared_eq hc] at he
    split at he
    next g hg =>
      -- what is kept was prepared on this connection and holds all values already
      obtain ⟨c', bs, hc', hd, hbs⟩ := hsynced g hg
      obtain ⟨rfl, rfl, hquiet', hready⟩ := reuse_ok hd hbs he
      have hcc : c' = c := Option.some.inj (hc'.symm.trans (hlast _ hg))
      rw [hcc] at hready
      exact ⟨hkept, hquiet.trans hquiet', c, rfl, hg, hlast _ hg, hkept.ready.1 hready⟩
    next hnone =>
      obtain ⟨rfl, hquiet', hready⟩ := prepareOn_ok he
      exact ⟨⟨hkept.sql, hkept.params, hkept.connection⟩, hquiet.trans hquiet', c, rfl, rfl, rfl,
        hkept.ready.1 hready⟩

/-! ## Running -/

/-- What the query asks for now has been recorded by the server of its connection. -/
def Recorded (q : Query) (d d' : Driver) : Prop :=
  ∃ c, q.connection = some c ∧
    d'.executions = d.executions.modify (d.connection c).server (· ++ [q.record d.slots])

/-- A run keeps what the query asks for and the statement in step with it. It records what the query
asks for or nothing, and nothing only if it fails. -/
structure Ran {α : Type} (q : Query) (d : Driver) (o : Outcome α) : Prop where
  synced : o.2.1.Synced o.2.2
  kept : Kept q o.2.1
  slots : o.2.2.slots = d.slots
  recorded : o.2.2.executions = d.executions ∨ q.Recorded d o.2.2
  success : ∀ a, o.1 = .ok a → q.Recorded d o.2.2

theorem synced_of_holds {slots : Slots} (hk : Kept q q') (hh : q'.handle = some h)
    (hlast : q'.lastConnection = some c)
    (hd : d.Holds h c q.sql (q.params.entries.map (boundNow slots))) : q'.Synced d := by
  intro g hg
  rw [hh] at hg
  cases hg
  refine ⟨c, q.params.entries.map (boundNow slots), hlast, ?_, ?_⟩
  · rw [hk.sql]
    exact hd
  · rw [hk.params, List.forall₂_map_right_iff, List.forall₂_same]
    exact fun e _ => bound_boundNow slots e

/-- A statement that could not be executed stays ready. -/
theorem run_ran (hs : q.Synced d) : Ran q d (q.run d) := by
  unfold run
  cases hp : q.ensurePrepared d with
  | mk result rest =>
    obtain ⟨q₁, d₁⟩ := rest
    cases result with
    | error e =>
      obtain ⟨hkept, hquiet, hsynced⟩ := ensurePrepared_error hs hp
      exact ⟨hsynced, hkept, hquiet.slots, Or.inl hquiet.executions, fun a ha => nomatch ha⟩
    | ok h =>
      obtain ⟨hkept, hquiet, c, hc, hhandle, hlast, hready⟩ := ensurePrepared_ok hs hp
      unfold Ready at hready
      dsimp only
      cases he : d₁.execute h with
      | mk result d₂ =>
        cases result with
        | error e =>
          obtain ⟨hquiet', hhandles⟩ := execute_error he
          have hd : d₂.Holds h c q.sql (q.params.entries.map (boundNow d₁.slots)) := by
            unfold Driver.Holds at hready ⊢
            rw [hhandles]
            exact hready
          exact ⟨synced_of_holds hkept hhandle hlast hd, hkept, hquiet'.slots.trans hquiet.slots,
            Or.inl (hquiet'.executions.trans hquiet.executions), fun a ha => nomatch ha⟩
        | ok n =>
          obtain ⟨hslots, -, hd, hexecutions⟩ := execute_ok hready he
          have hrecorded : q.Recorded d d₂ := by
            refine ⟨c, hc, ?_⟩
            unfold record
            rw [hexecutions, hquiet.executions, hquiet.slots]
            unfold Driver.connection
            rw [hquiet.connections]
          exact ⟨synced_of_holds hkept hhandle hlast hd, hkept, hslots.trans hquiet.slots,
            Or.inr hrecorded, fun _ _ => hrecorded⟩

/-! ## Running afresh -/

def afresh (q : Query) (c : ConnectionId) : Query :=
  { q with connection := some c, lastConnection := none, handle := none }

theorem synced_afresh (q : Query) (c : ConnectionId) (d : Driver) : (q.afresh c).Synced d :=
  synced_of_none rfl

theorem prepareOn_willing (hw : d.Willing c q.params.keys) :
    ∃ h, (q.prepareOn d c).1 = .ok h := by
  obtain ⟨h, hh⟩ := hw.prepare q.sql
  have hquiet := prepare_quiet d c q.sql
  unfold prepareOn
  cases hp : d.prepare c q.sql with
  | mk result d₁ =>
    rw [hp] at hh hquiet
    cases hh
    have hentries : ∀ e ∈ q.params.entries, e.1 ∈ q.params.keys := by
      intro e he
      exact List.mem_map.2 ⟨e, he, rfl⟩
    have hok := bindAll_willing (hquiet.willing hw) (holds_prepare hp) hentries
    dsimp only
    cases hb : bindAll d₁ h q.params.entries with
    | mk result d₂ =>
      rw [hb] at hok
      cases hok
      exact ⟨h, rfl⟩

theorem run_afresh (hw : d.Willing c q.params.keys) : ∃ r, ((q.afresh c).run d).1 = .ok r := by
  have hprepared : (q.afresh c).ensurePrepared d = (q.afresh c).prepareOn d c := rfl
  have hw' : d.Willing c (q.afresh c).params.keys := hw
  obtain ⟨h, hh⟩ := prepareOn_willing hw'
  unfold run
  rw [hprepared]
  cases hp : (q.afresh c).prepareOn d c with
  | mk result rest =>
    obtain ⟨q₁, d₁⟩ := rest
    rw [hp] at hh
    cases hh
    obtain ⟨-, hquiet, hready⟩ := prepareOn_ok hp
    obtain ⟨n, hn⟩ := (hquiet.willing hw).execute hready
    dsimp only
    cases he : d₁.execute h with
    | mk result d₂ =>
      rw [he] at hn
      cases hn
      exact ⟨_, rfl⟩

/-- Prepared afresh on a connection on which all calls succeed, the query records what it asks for.
-/
theorem execute_afresh (hw : d.Willing c q.params.keys) :
    ((q.afresh c).execute d).2.2.executions =
      d.executions.modify (d.connection c).server (· ++ [q.record d.slots]) := by
  obtain ⟨r, hr⟩ := run_afresh hw
  obtain ⟨c', hc', hrecorded⟩ := (run_ran (synced_afresh q c d)).success r hr
  cases hc'
  exact hrecorded

/-! ## Reading results -/

variable {α β : Type} {o : Outcome α}

theorem Ran.read (hr : Ran q d o) {r : Except Error β} (hquiet : Quiet o.2.2 d')
    (hholds : ∀ {h c sql bs}, o.2.2.Holds h c sql bs → d'.Holds h c sql bs)
    (hok : ∀ b, r = .ok b → ∃ a, o.1 = .ok a) : Ran q d (r, o.2.1, d') := by
  have hsynced : o.2.1.Synced d' := by
    intro h hh
    obtain ⟨c, bs, hlast, hd, hbs⟩ := hr.synced h hh
    exact ⟨c, bs, hlast, hholds hd, hbs⟩
  have hrecorded : q.Recorded d o.2.2 → q.Recorded d d' := by
    rintro ⟨c, hc, h⟩
    exact ⟨c, hc, hquiet.executions.trans h⟩
  refine ⟨hsynced, hr.kept, hquiet.slots.trans hr.slots, ?_, fun b hb => ?_⟩
  · obtain h | h := hr.recorded
    · exact Or.inl (hquiet.executions.trans h)
    · exact Or.inr (hrecorded h)
  · obtain ⟨a, ha⟩ := hok b hb
    exact hrecorded (hr.success a ha)

theorem Ran.bind (hr : Ran q d o) (f : α → Except Error β) : Ran q d (o.bind f) := by
  refine hr.read (Quiet.refl _) (fun hd => hd) fun b hb => ?_
  cases ha : o.1 with
  | ok a => exact ⟨a, rfl⟩
  | error e =>
    rw [ha] at hb
    cases hb

theorem map_eq_bind (f : α → β) (o : Outcome α) : o.map f = o.bind fun a => .ok (f a) := by
  obtain ⟨result, rest⟩ := o
  cases result with
  | ok a => rfl
  | error e => rfl

theorem Ran.map (hr : Ran q d o) (f : α → β) : Ran q d (o.map f) := by
  rw [map_eq_bind]
  exact hr.bind _

theorem runAnd_ran (hs : q.Synced d) {read : Driver → HandleId → α × Driver}
    (hquiet : ∀ d h, Quiet d (read d h).2)
    (hholds : ∀ d g h c sql bs, d.Holds h c sql bs → (read d g).2.Holds h c sql bs) :
    Ran q d (q.runAnd read d) := by
  have hr := run_ran hs
  unfold runAnd
  cases hrun : q.run d with
  | mk result rest =>
    obtain ⟨q₁, d₁⟩ := rest
    rw [hrun] at hr
    cases result with
    | error e => exact hr.read (Quiet.refl _) (fun hd => hd) fun b hb => nomatch hb
    | ok r => exact hr.read (hquiet d₁ r.2) (fun hd => hholds d₁ r.2 _ _ _ _ hd) fun _ _ => ⟨r, rfl⟩

theorem fetchAll_ran (hs : q.Synced d) : Ran q d (q.fetchAll d) :=
  runAnd_ran hs fetchAll_quiet fun _ g _ _ _ _ hd => holds_fetchAll hd g

theorem fetchRow_ran (hs : q.Synced d) : Ran q d (q.fetchRow d) :=
  runAnd_ran hs fetch_quiet fun _ g _ _ _ _ hd => holds_fetch hd g

end Query

end SqlStatement
