import SqlStatement.Proofs.Driver.Holding
import SqlStatement.Proofs.Query.Script

/-!
# The calls of a query over its life

A query holds one prepared statement at most. Its calls keep to `Move`, whatever the driver answers,
and so does a whole life of the query, with all that happens around it.

* `Script.Leads` : what holds after a script, with the path of its calls;
* `Query.Stands` : the query has the statement that is held;
* `Query.life_protocol` : the order of these calls.
-/

namespace SqlStatement

variable {α β : Type} {current : Option ConnectionId} {d : Driver} {s : Holding}

/-! ## The calls of a script -/

/-- The calls of a script make a path, and what comes of it is as required. -/
def Script.Leads (current : Option ConnectionId) (x : Script α) (d : Driver) (s : Holding)
    (Q : α → Driver → Holding → Prop) : Prop :=
  ∃ s', Path current s (x.exchanges d) s' ∧ Q (x.play d).1 (x.play d).2 s'

namespace Script

variable {Q P : α → Driver → Holding → Prop} {R : β → Driver → Holding → Prop}

theorem leads_done {a : α} (h : Q a d s) : (done a).Leads current d s Q :=
  ⟨s, Path.stay s, h⟩

theorem leads_ask {r : Request} {next : r.Reply → Script α} {s₁ : Holding}
    (hmove : Move current s ⟨r, (d.answer r).1⟩ s₁)
    (hnext : (next (d.answer r).1).Leads current (d.answer r).2 s₁ Q) :
    (ask r next).Leads current d s Q := by
  obtain ⟨s₂, hpath, hQ⟩ := hnext
  exact ⟨s₂, (Path.single hmove).trans hpath, hQ⟩

theorem leads_bind {x : Script α} {f : α → Script β} (hx : x.Leads current d s P)
    (hf : ∀ a d' s', P a d' s' → (f a).Leads current d' s' R) : (x.bind f).Leads current d s R := by
  obtain ⟨s₁, hpath, hP⟩ := hx
  obtain ⟨s₂, hrest, hR⟩ := hf _ _ _ hP
  refine ⟨s₂, ?_, ?_⟩
  · rw [exchanges_bind]
    exact hpath.trans hrest
  · rw [play_bind]
    exact hR

theorem Leads.mono {x : Script α} (hx : x.Leads current d s P)
    (h : ∀ a d' s', P a d' s' → Q a d' s') : x.Leads current d s Q := by
  obtain ⟨s₁, hpath, hP⟩ := hx
  exact ⟨s₁, hpath, h _ _ _ hP⟩

/-- A statement whose cursor is closed can be given up before a script. -/
theorem leads_of_released {x : Script α} {n h : HandleId} {c : ConnectionId}
    (hx : x.Leads current d ⟨n, none⟩ Q) :
    x.Leads current d ⟨n, some ⟨h, c, .closed⟩⟩ Q := by
  obtain ⟨s', hpath, hQ⟩ := hx
  exact ⟨s', (Path.stay _).release.trans hpath, hQ⟩

end Script

/-! ## Numbers of statements -/

namespace Driver

theorem length_handles_answer (d : Driver) (r : Request) :
    d.handles.length ≤ (d.answer r).2.handles.length := by
  cases r with
  | prepare c sql =>
    show _ ≤ (d.prepare c sql).2.handles.length
    unfold prepare
    split
    next => exact Nat.le_refl _
    next => simp [record, modifyServerOf, modifyServer]
  | bind h p =>
    show _ ≤ (d.bind h p).2.handles.length
    unfold bind
    split
    next => exact Nat.le_refl _
    next => simp [record, modifyHandle]
  | execute h =>
    show _ ≤ (d.execute h).2.handles.length
    unfold execute
    dsimp only
    split
    next => exact Nat.le_refl _
    next => simp [record, modifyHandle, modifyServerOf, modifyServer]
  | fetch h => simp [answer, fetch, modifyHandle]
  | fetchAll h => simp [answer, fetchAll, modifyHandle]
  | close h => simp [answer, closeCursor, record, modifyHandle, modifyServerOf, modifyServer]

theorem prepare_ok {c : ConnectionId} {sql : String} {h : HandleId}
    (hp : (d.prepare c sql).1 = .ok h) :
    h = d.handles.length ∧ (d.prepare c sql).2.handles.length = h + 1 := by
  unfold prepare at hp ⊢
  split at hp
  next => cases hp
  next =>
    cases hp
    simp [*, record, modifyServerOf, modifyServer]

end Driver

namespace Query

open Script Exchange

/-- The query has the statement that is held, and knows the connection it was prepared on. -/
structure Stands (q : Query) (d : Driver) (s : Holding) : Prop where
  fresh : s.fresh ≤ d.handles.length
  handle : q.handle = s.held.map Held.handle
  connection : ∀ g, s.held = some g → q.lastConnection = some g.connection

variable {q : Query} {slots : Slots}

theorem Stands.answer (hq : q.Stands d s) (r : Request) : q.Stands (d.answer r).2 s :=
  ⟨Nat.le_trans hq.fresh (d.length_handles_answer r), hq.handle, hq.connection⟩

theorem Stands.held_none (hq : q.Stands d s) (hh : q.handle = none) : s = ⟨s.fresh, none⟩ := by
  have hmap := hq.handle
  rw [hh] at hmap
  rcases s with ⟨n, _ | g⟩
  · rfl
  · cases hmap

theorem Stands.held_some {h : HandleId} (hq : q.Stands d s) (hh : q.handle = some h) :
    ∃ c phase, s = ⟨s.fresh, some ⟨h, c, phase⟩⟩ ∧ q.lastConnection = some c := by
  have hmap := hq.handle
  rw [hh] at hmap
  rcases s with ⟨n, _ | g⟩
  · cases hmap
  · cases hmap
    exact ⟨g.connection, g.phase, rfl, hq.connection g rfl⟩

/-! ## Preparing and closing -/

theorem leads_closing (hq : q.Stands d s) :
    q.closing.Leads current d s fun q' d' s' => q'.Stands d' s' ∧ s'.held = none := by
  unfold closing
  cases hh : q.handle with
  | none =>
    refine leads_done ⟨hq, ?_⟩
    rw [hq.held_none hh]
  | some h =>
    obtain ⟨c, phase, hs, -⟩ := hq.held_some hh
    have hfresh := (hq.answer (.close h)).fresh
    rw [hs]
    refine leads_ask (.called (.close phase) (by simp)) (leads_of_released (leads_done ?_))
    exact ⟨⟨hfresh, rfl, by simp⟩, rfl⟩

theorem leads_bindingAll {n h : HandleId} {c : ConnectionId} {phase : Phase}
    (hphase : phase ≠ .executed) (hn : n ≤ d.handles.length) (es : List (ParamKey × Binding)) :
    (bindingAll slots h es).Leads current d ⟨n, some ⟨h, c, phase⟩⟩ fun _ d' s' =>
      n ≤ d'.handles.length ∧ ∃ phase', phase' ≠ .executed ∧ s' = ⟨n, some ⟨h, c, phase'⟩⟩ := by
  induction es generalizing d phase with
  | nil => exact leads_done ⟨hn, phase, hphase, rfl⟩
  | cons e es ih =>
    have hn' := Nat.le_trans hn (d.length_handles_answer (.bind h (boundNow slots e)))
    refine leads_ask (.called (.bind hphase _ _) (by simp)) ?_
    rcases (d.answer (.bind h (boundNow slots e))).1 with err | u
    · exact leads_done ⟨hn', .ready, by simp, rfl⟩
    · exact ih (by simp) hn'

/-- The statement of a successful preparation is held and has not been executed. -/
def Obtained (c : ConnectionId) (r : Except Error HandleId) (s : Holding) : Prop :=
  ∀ h, r = .ok h → ∃ phase, phase ≠ .executed ∧ s.held = some ⟨h, c, phase⟩

theorem leads_preparing {c : ConnectionId} (hq : q.Stands d s) (hh : q.handle = none) :
    (q.preparing slots c).Leads current d s fun r d' s' => r.2.Stands d' s' ∧ Obtained c r.1 s' := by
  have hs := hq.held_none hh
  rw [hs] at hq ⊢
  unfold preparing
  have hanswer : (d.answer (.prepare c q.sql)).1 = (d.prepare c q.sql).1 := rfl
  have hstands := hq.answer (.prepare c q.sql)
  rcases hp : (d.prepare c q.sql).1 with err | h
  · have hmove : Move current ⟨s.fresh, none⟩ ⟨.prepare c q.sql, (d.answer (.prepare c q.sql)).1⟩
        ⟨s.fresh, none⟩ := by
      rw [hanswer, hp]
      exact .refused s.fresh c q.sql err
    refine leads_ask hmove ?_
    rw [hanswer, hp]
    exact leads_done ⟨hstands, by simp [Obtained]⟩
  · obtain ⟨hlength, hnext⟩ := Driver.prepare_ok hp
    have hfresh : s.fresh ≤ h := by
      rw [hlength]
      exact hq.fresh
    have hmove : Move current ⟨s.fresh, none⟩ ⟨.prepare c q.sql, (d.answer (.prepare c q.sql)).1⟩
        ⟨h + 1, some ⟨h, c, .ready⟩⟩ := by
      rw [hanswer, hp]
      exact .prepared hfresh c q.sql
    refine leads_ask hmove ?_
    rw [hanswer, hp]
    refine leads_bind (leads_bindingAll (by simp) (Nat.le_of_eq hnext.symm) _) ?_
    rintro (err | u) d₁ s₁ ⟨hn, phase, hphase, rfl⟩
    · -- the first binding failed: what has been prepared is closed and given up
      have hn' := Nat.le_trans hn (d₁.length_handles_answer (.close h))
      refine leads_ask (.called (.close phase) (by simp)) (leads_of_released (leads_done ?_))
      exact ⟨⟨hn', hh, by simp⟩, by simp [Obtained]⟩
    · refine leads_done ⟨⟨hn, rfl, ?_⟩, ?_⟩
      · intro g hg
        cases hg
        rfl
      · intro g hg
        cases hg
        exact ⟨phase, hphase, rfl⟩

theorem leads_reusing {c : ConnectionId} {h : HandleId} (hq : q.Stands d s)
    (hh : q.handle = some h) (hc : ∀ g, s.held = some g → g.connection = c) :
    (q.reusing slots h).Leads current d s fun r d' s' => r.2.Stands d' s' ∧ Obtained c r.1 s' := by
  obtain ⟨c', phase, hs, hlast⟩ := hq.held_some hh
  rw [hs] at hq hc ⊢
  have hcc : c' = c := hc _ rfl
  subst hcc
  have hn := (hq.answer (.close h)).fresh
  unfold reusing
  refine leads_ask (.called (.close phase) (by simp))
    (leads_bind (leads_bindingAll (by simp) hn _) ?_)
  rintro (err | u) d₁ s₁ ⟨hn, phase', hphase', rfl⟩
  · -- binding what is read from slots failed: the statement is closed and given up
    have hn' := Nat.le_trans hn (d₁.length_handles_answer (.close h))
    refine leads_ask (.called (.close phase') (by simp)) (leads_of_released (leads_done ?_))
    exact ⟨⟨hn', rfl, by simp⟩, by simp [Obtained]⟩
  · refine leads_done ⟨⟨hn, hh, ?_⟩, ?_⟩
    · intro g hg
      cases hg
      exact hlast
    · intro g hg
      cases hg
      exact ⟨phase', hphase', rfl⟩

theorem leads_leaving (hq : q.Stands d s) (c : ConnectionId) :
    (q.leaving c).Leads current d s fun q' d' s' =>
      q'.Stands d' s' ∧ ∀ g, s'.held = some g → g.connection = c := by
  unfold leaving
  cases hl : q.lastConnection with
  | none =>
    refine leads_done ⟨hq, ?_⟩
    intro g hg
    have hconnection := hq.connection g hg
    rw [hl] at hconnection
    cases hconnection
  | some last =>
    dsimp only
    by_cases hc : last = c
    · rw [if_pos hc]
      refine leads_done ⟨hq, ?_⟩
      intro g hg
      have hconnection := hq.connection g hg
      rw [hl, hc] at hconnection
      exact (Option.some.inj hconnection).symm
    · rw [if_neg hc]
      refine (leads_closing hq).mono ?_
      rintro q' d' s' ⟨hq', hnone⟩
      exact ⟨hq', by simp [hnone]⟩

theorem leads_readying (hq : q.Stands d s) :
    (q.readying slots).Leads current d s fun r d' s' =>
      r.2.Stands d' s' ∧ ∀ h, r.1 = .ok h → ∃ c phase, q.connection = some c ∧
        phase ≠ .executed ∧ s'.held = some ⟨h, c, phase⟩ := by
  unfold readying
  cases hc : q.connection with
  | none => exact leads_done ⟨hq, by simp⟩
  | some c =>
    refine leads_bind (leads_leaving hq c) ?_
    rintro q₁ d₁ s₁ ⟨hq₁, hconnection⟩
    have hready : ∀ (r : Except Error HandleId × Query) (d' : Driver) (s' : Holding),
        r.2.Stands d' s' ∧ Obtained c r.1 s' → r.2.Stands d' s' ∧ ∀ h, r.1 = .ok h →
          ∃ c' phase, some c = some c' ∧ phase ≠ .executed ∧ s'.held = some ⟨h, c', phase⟩ := by
      rintro r d' s' ⟨hr, hok⟩
      refine ⟨hr, fun h hh => ?_⟩
      obtain ⟨phase, hphase, hheld⟩ := hok h hh
      exact ⟨c, phase, rfl, hphase, hheld⟩
    cases hh : q₁.handle with
    | some h => exact (leads_reusing hq₁ hh hconnection).mono hready
    | none => exact (leads_preparing hq₁ hh).mono hready

/-! ## Running -/

/-- The statement that has been run is held. -/
theorem leads_running (hq : q.Stands d s) :
    (q.running slots).Leads q.connection d s fun r d' s' =>
      r.2.Stands d' s' ∧ ∀ n h, r.1 = .ok (n, h) →
        ∃ c, q.connection = some c ∧ s'.held = some ⟨h, c, .executed⟩ := by
  unfold running
  refine leads_bind (leads_readying hq) ?_
  rintro ⟨err | h, q₁⟩ d₁ ⟨n, held⟩ ⟨hq₁, hready⟩
  · exact leads_done ⟨hq₁, by simp⟩
  · obtain ⟨c, phase, hc, hphase, hheld⟩ := hready h rfl
    cases hheld
    have hq₂ : q₁.Stands (d₁.answer (.execute h)).2 ⟨n, some ⟨h, c, .executed⟩⟩ := by
      refine ⟨(hq₁.answer (.execute h)).fresh, hq₁.handle, ?_⟩
      intro g hg
      cases hg
      exact hq₁.connection ⟨h, c, phase⟩ rfl
    refine leads_ask (.called (.execute hphase _) fun _ => hc) ?_
    rcases (d₁.answer (.execute h)).1 with err | k
    · exact leads_done ⟨hq₂, by simp⟩
    · refine leads_done ⟨hq₂, ?_⟩
      intro k' h' hr
      cases hr
      exact ⟨c, hc, rfl⟩

theorem leads_fetchingAll (hq : q.Stands d s) (f : List Row → Except Error Unit) :
    (q.fetchingAll slots f).Leads q.connection d s fun r d' s' => r.2.Stands d' s' := by
  unfold fetchingAll
  refine leads_bind (leads_running hq) ?_
  rintro ⟨err | ⟨k, h⟩, q₁⟩ d₁ ⟨n, held⟩ ⟨hq₁, hexecuted⟩
  · exact leads_done hq₁
  · obtain ⟨c, hc, hheld⟩ := hexecuted k h rfl
    cases hheld
    exact leads_ask (.called (.fetchAll _) fun _ => hc) (leads_done (hq₁.answer (.fetchAll h)))

theorem leads_fetchingRow (hq : q.Stands d s) (f : Option Row → Except Error Unit) :
    (q.fetchingRow slots f).Leads q.connection d s fun r d' s' => r.2.Stands d' s' := by
  unfold fetchingRow
  refine leads_bind (leads_running hq) ?_
  rintro ⟨err | ⟨k, h⟩, q₁⟩ d₁ ⟨n, held⟩ ⟨hq₁, hexecuted⟩
  · exact leads_done hq₁
  · obtain ⟨c, hc, hheld⟩ := hexecuted k h rfl
    cases hheld
    exact leads_ask (.called (.fetch _) fun _ => hc) (leads_done (hq₁.answer (.fetch h)))

theorem leads_mapping (hq : q.Stands d s) (option : Option MapOption) :
    (q.mapping slots option).Leads q.connection d s fun r d' s' => r.2.Stands d' s' := by
  unfold mapping
  cases option.or q.mapOption with
  | none => exact leads_done hq
  | some option => exact leads_fetchingAll hq _

/-! ## The operations -/

theorem leads_binding (hq : q.Stands d s) (key : ParamKey) (b : Binding) :
    (q.binding slots key b).Leads current d s fun r d' s' => r.2.Stands d' s' := by
  unfold binding
  cases hh : q.handle with
  | none =>
    refine leads_done ⟨hq.fresh, ?_, hq.connection⟩
    rw [← hq.handle]
    exact hh.symm
  | some h =>
    obtain ⟨c, phase, hs, hlast⟩ := hq.held_some hh
    have hn := (hq.answer (.close h)).fresh
    have hn' := Nat.le_trans hn
      ((d.answer (.close h)).2.length_handles_answer (.bind h (boundNow slots (key, b))))
    have hconnection : ∀ g, some (Held.mk h c .ready) = some g →
        q.lastConnection = some g.connection := by
      intro g hg
      cases hg
      exact hlast
    rw [hs]
    refine leads_ask (.called (.close phase) (by simp))
      (leads_ask (.called (.bind (by simp) _ _) (by simp)) ?_)
    rcases ((d.answer (.close h)).2.answer (.bind h (boundNow slots (key, b)))).1 with err | u
    · exact leads_done ⟨hn', hh, hconnection⟩
    · exact leads_done ⟨hn', rfl, hconnection⟩

/-- The calls of an operation, while the connection stays the one before the operation. -/
theorem Operation.leads (hq : q.Stands d s) (op : Operation) :
    (op.script q slots).Leads q.connection d s fun r d' s' => r.2.Stands d' s' := by
  cases op with
  | bind key b => exact leads_binding hq key b
  | setParams ps =>
    have hset : Query.Stands { q with params := ps } d s := ⟨hq.fresh, hq.handle, hq.connection⟩
    refine leads_bind (leads_closing hset) ?_
    intro q₁ d₁ s₁ hclosed
    exact leads_done hclosed.1
  | setConnection c => exact leads_done ⟨hq.fresh, hq.handle, hq.connection⟩
  | close =>
    refine leads_bind (leads_closing hq) ?_
    intro q₁ d₁ s₁ hclosed
    exact leads_done hclosed.1
  | execute =>
    refine leads_bind (leads_running hq) ?_
    rintro ⟨r, q₁⟩ d₁ s₁ ⟨hq₁, -⟩
    exact leads_done hq₁
  | fetchAll => exact leads_fetchingAll hq _
  | fetchAllCells => exact leads_fetchingAll hq _
  | fetchColumn => exact leads_fetchingAll hq _
  | fetchRow => exact leads_fetchingRow hq _
  | fetchRowCells => exact leads_fetchingRow hq _
  | fetchScalar => exact leads_fetchingRow hq _
  | fetchRecords α => exact leads_fetchingAll hq _
  | fetchRecord α => exact leads_fetchingRow hq _
  | fetchMap option => exact leads_mapping hq option

/-! ## Over the life of a query -/

def Event.exchanges (q : Query) (d : Driver) : Event → List Exchange
  | operation op => (op.script q d.slots).exchanges d
  | write _ => []
  | surroundings _ _ _ => []

/-- The calls that a query makes over its life. -/
def journal (q : Query) (d : Driver) : List Event → List Exchange
  | [] => []
  | event :: events =>
    event.exchanges q d ++ journal (event.step (q, d)).1 (event.step (q, d)).2 events

theorem life_append (q : Query) (d : Driver) (before after : List Event) :
    q.life d (before ++ after) = (q.life d before).1.life (q.life d before).2 after :=
  List.foldl_append ..

theorem journal_append (q : Query) (d : Driver) (before after : List Event) :
    q.journal d (before ++ after) =
      q.journal d before ++ (q.life d before).1.journal (q.life d before).2 after := by
  induction before generalizing q d with
  | nil => rfl
  | cons event before ih =>
    have hrest := ih (event.step (q, d)).1 (event.step (q, d)).2
    show event.exchanges q d ++ _ = (event.exchanges q d ++ _) ++ _
    rw [List.append_assoc]
    exact congrArg (event.exchanges q d ++ ·) hrest

theorem journal_single (q : Query) (d : Driver) (event : Event) :
    q.journal d [event] = event.exchanges q d :=
  List.append_nil _

theorem step_operation (q : Query) (d : Driver) (op : Operation) :
    Event.step (q, d) (.operation op) =
      (((op.script q d.slots).play d).1.2, ((op.script q d.slots).play d).2) := by
  show (op.apply q d).2 = _
  rw [← outcome_script]
  rfl

/-- The journal has what the driver records, and the calls that it does not record. -/
theorem calls_life (q : Query) (d : Driver) (events : List Event) :
    (q.life d events).2.calls = d.calls ++ (q.journal d events).flatMap Exchange.recorded := by
  induction events generalizing q d with
  | nil => exact (List.append_nil _).symm
  | cons event events ih =>
    have hcalls : (event.step (q, d)).2.calls =
        d.calls ++ (event.exchanges q d).flatMap Exchange.recorded := by
      cases event with
      | operation op =>
        rw [step_operation]
        exact calls_play _ d
      | write slots => exact (List.append_nil _).symm
      | surroundings servers connections handles => exact (List.append_nil _).symm
    have hrest := ih (event.step (q, d)).1 (event.step (q, d)).2
    rw [hcalls, List.append_assoc, ← List.flatMap_append] at hrest
    exact hrest

theorem Event.path (hq : q.Stands d s) (event : Event) :
    ∃ s', Path q.connection s (event.exchanges q d) s' ∧
      (event.step (q, d)).1.Stands (event.step (q, d)).2 s' := by
  cases event with
  | operation op =>
    have hleads : (op.script q d.slots).Leads q.connection d s _ := Operation.leads hq op
    obtain ⟨s', hpath, hq'⟩ := hleads
    refine ⟨s', hpath, ?_⟩
    rw [step_operation]
    exact hq'
  | write slots => exact ⟨s, Path.stay s, hq.fresh, hq.handle, hq.connection⟩
  | surroundings servers connections handles =>
    refine ⟨s, Path.stay s, ?_, hq.handle, hq.connection⟩
    have hlength : d.handles.length ≤ (d.handles ++ handles).length := by simp
    exact Nat.le_trans hq.fresh hlength

theorem history_life {J : List Exchange} (hist : History J s) (hq : q.Stands d s)
    (events : List Event) : ∃ s', History (J ++ q.journal d events) s' ∧
      (q.life d events).1.Stands (q.life d events).2 s' := by
  induction events generalizing q d s J with
  | nil => exact ⟨s, by simpa [journal] using hist, hq⟩
  | cons event events ih =>
    obtain ⟨s₁, hpath, hq₁⟩ := event.path hq
    obtain ⟨s₂, hrest, hq₂⟩ := ih (hist.path hpath) hq₁
    rw [List.append_assoc] at hrest
    exact ⟨s₂, hrest, hq₂⟩

theorem forsaken_life {h : HandleId} (hs : s.Forsaken h) (hq : q.Stands d s)
    (events : List Event) : callsTo h (q.journal d events) = [] := by
  induction events generalizing q d s with
  | nil => rfl
  | cons event events ih =>
    obtain ⟨s₁, hpath, hq₁⟩ := event.path hq
    obtain ⟨hnil, hs₁⟩ := hpath.forsaken hs
    show callsTo h (event.exchanges q d ++ _) = []
    rw [callsTo_append, hnil, ih hs₁ hq₁, List.append_nil]

/-- A query is made, things are done with it and happen around it in any order, calls fail at any
point, and at last the query is dropped, which closes it. Its operations are their scripts played, and
the driver's record is what it records of the calls of these scripts. Then

* between an execution of a statement and the next binding or execution its cursor is closed;
* when a statement is prepared, the last call to every earlier one has closed its cursor, and from
  then on no call reaches it;
* whenever the query does not have a statement that it has called, the last call to the statement
  has closed its cursor, and no call reaches it again; in the end the query has none;
* a statement is executed only while the connection of the query is the one it was prepared on. -/
theorem life_protocol (sql : String) (ps : Params) (option : Option MapOption)
    (connection : Option ConnectionId) (d₀ : Driver) (events : List Event) :
    let q₀ : Query := { sql, params := ps, mapOption := option, connection }
    let whole := events ++ [.operation .close]
    let calls := q₀.journal d₀ whole
    (∀ (q : Query) d (op : Operation), (op.script q d.slots).outcome d = op.apply q d) ∧
      (q₀.life d₀ whole).2.calls = d₀.calls ++ calls.flatMap Exchange.recorded ∧
      (∀ h, Rested h calls) ∧
      (∀ before c text r after, calls = before ++ ⟨.prepare c text, r⟩ :: after →
        ∀ h, callsTo h before ≠ [] →
          LastClosed h before ∧ callsTo h (⟨.prepare c text, r⟩ :: after) = []) ∧
      (∀ before after, whole = before ++ after → ∀ h, callsTo h (q₀.journal d₀ before) ≠ [] →
        (q₀.life d₀ before).1.handle ≠ some h →
          LastClosed h (q₀.journal d₀ before) ∧
            callsTo h ((q₀.life d₀ before).1.journal (q₀.life d₀ before).2 after) = []) ∧
      (q₀.life d₀ whole).1.handle = none ∧
      ∀ before op after, whole = before ++ .operation op :: after →
        ∀ h r, ⟨.execute h, r⟩ ∈
            (op.script (q₀.life d₀ before).1 (q₀.life d₀ before).2.slots).exchanges
              (q₀.life d₀ before).2 →
          ∃ c text, (q₀.life d₀ before).1.connection = some c ∧
            ⟨.prepare c text, .ok h⟩ ∈ q₀.journal d₀ (before ++ [.operation op]) := by
  intro q₀ whole calls
  have hstart : q₀.Stands d₀ ⟨0, none⟩ := ⟨Nat.zero_le _, rfl, by simp⟩
  have hist : ∀ es, ∃ s, History (q₀.journal d₀ es) s ∧
      (q₀.life d₀ es).1.Stands (q₀.life d₀ es).2 s := by
    intro es
    have hlife := history_life (history_nil 0) hstart es
    rwa [List.nil_append] at hlife
  obtain ⟨s, hwhole, -⟩ := hist whole
  refine ⟨outcome_script, calls_life q₀ d₀ whole, hwhole.rested, ?_, ?_, ?_, ?_⟩
  · intro before c text r after heq h hne
    obtain ⟨hlast, hafter, -⟩ := hwhole.apart before c text r after heq h hne
    exact ⟨hlast, hafter⟩
  · intro before after _ h hne hnot
    obtain ⟨s₁, hist₁, hq₁⟩ := hist before
    have hapart : ∀ c phase, s₁.held ≠ some ⟨h, c, phase⟩ := by
      intro c phase hheld
      refine hnot ?_
      rw [hq₁.handle, hheld]
      rfl
    refine ⟨hist₁.closed h hne fun c phase hheld => absurd hheld (hapart c phase), ?_⟩
    exact forsaken_life ⟨hist₁.old h hne, hapart⟩ hq₁ after
  · rw [life_append]
    exact (Query.close_spec _ _).2.2
  · intro before op after _ h r hmem
    obtain ⟨s₁, hist₁, hq₁⟩ := hist before
    obtain ⟨s₂, hpath, -⟩ := (Event.operation op).path hq₁
    rw [journal_append, journal_single]
    exact hpath.executed hist₁ hmem

end Query

end SqlStatement
