import SqlStatement.Proofs.Query.Protocol

/-!
# The connection of the last execution

A query notes the connection whenever it prepares its statement, and it later asks this connection
for the key of the row inserted last. Once a statement is ready it is executed, so what has been
noted is the connection of the last execution. It stays through everything that executes nothing.

* `Query.Tracks`, `Query.Operation.tracks` : what an operation notes;
* `Query.Remembers`, `Query.remembers_life` : what is noted after all that can happen;
* `Query.life_insertedId` : the connection that is asked for the key.
-/

namespace SqlStatement

open Exchange

variable {α β : Type} {J : List Exchange} {h : HandleId} {d : Driver} {s : Holding}

/-! ## The last execution -/

def Exchange.executed? : Exchange → Option HandleId
  | ⟨.execute h, _⟩ => some h
  | _ => none

/-- The statement that has been executed last; none if nothing has been executed. -/
def lastExecuted (J : List Exchange) : Option HandleId := (J.filterMap Exchange.executed?).getLast?

theorem executed?_eq_some_iff {x : Exchange} : x.executed? = some h ↔ ∃ r, x = ⟨.execute h, r⟩ := by
  constructor
  · intro hx
    unfold Exchange.executed? at hx
    split at hx
    next g r =>
      cases hx
      exact ⟨r, rfl⟩
    next => cases hx
  · rintro ⟨r, rfl⟩
    rfl

theorem lastExecuted_append (J K : List Exchange) :
    lastExecuted (J ++ K) = (lastExecuted K).or (lastExecuted J) := by
  unfold lastExecuted
  rw [List.filterMap_append, List.getLast?_append]

theorem lastExecuted_eq_none_iff : lastExecuted J = none ↔ ∀ h r, ⟨.execute h, r⟩ ∉ J := by
  unfold lastExecuted
  rw [List.getLast?_eq_none_iff, List.filterMap_eq_nil_iff]
  constructor
  · intro hnone h r hmem
    cases hnone _ hmem
  · intro hnone x hx
    rw [Option.eq_none_iff_forall_ne_some]
    intro h hh
    obtain ⟨r, rfl⟩ := executed?_eq_some_iff.1 hh
    exact hnone h r hx

theorem mem_of_lastExecuted (hlast : lastExecuted J = some h) : ∃ r, ⟨.execute h, r⟩ ∈ J := by
  obtain ⟨x, hx, hh⟩ := List.mem_filterMap.1 (List.mem_of_getLast? hlast)
  obtain ⟨r, rfl⟩ := executed?_eq_some_iff.1 hh
  exact ⟨r, hx⟩

/-! ## Scripts that execute nothing -/

def Request.executes : Request → Bool
  | execute _ => true
  | _ => false

namespace Script

/-- The script executes nothing, whatever it is answered. -/
def Calm : Script α → Prop
  | done _ => True
  | ask r next => r.executes = false ∧ ∀ reply, (next reply).Calm

theorem Calm.bind {x : Script α} {f : α → Script β} (hx : x.Calm) (hf : ∀ a, (f a).Calm) :
    (x.bind f).Calm := by
  induction x with
  | done a => exact hf a
  | ask r next ih => exact ⟨hx.1, fun reply => ih reply (hx.2 reply)⟩

theorem Calm.lastExecuted {x : Script α} (hx : x.Calm) (d : Driver) :
    lastExecuted (x.exchanges d) = none := by
  rw [lastExecuted_eq_none_iff]
  induction x generalizing d with
  | done a => exact fun h r => List.not_mem_nil
  | ask r next ih =>
    intro h reply hmem
    obtain heq | hrest := List.mem_cons.1 hmem
    · have hr : r = .execute h := (congrArg Exchange.request heq).symm
      have hcalm := hx.1
      rw [hr] at hcalm
      cases hcalm
    · exact ih _ (hx.2 _) _ h reply hrest

end Script

open Script

theorem calm_bindingAll (slots : Slots) (h : HandleId) :
    ∀ es : List (ParamKey × Binding), (bindingAll slots h es).Calm
  | [] => trivial
  | e :: es => by
    refine ⟨rfl, fun reply => ?_⟩
    rcases reply with err | u
    · exact trivial
    · exact calm_bindingAll slots h es

namespace Query

theorem calm_closing (q : Query) : q.closing.Calm := by
  unfold closing
  split
  next => exact trivial
  next => exact ⟨rfl, fun _ => trivial⟩

theorem calm_binding (q : Query) (slots : Slots) (key : ParamKey) (b : Binding) :
    (q.binding slots key b).Calm := by
  unfold binding
  split
  next => exact trivial
  next =>
    refine ⟨rfl, fun _ => ⟨rfl, fun reply => ?_⟩⟩
    rcases reply with err | u
    · exact trivial
    · exact trivial

theorem calm_preparing (q : Query) (slots : Slots) (c : ConnectionId) :
    (q.preparing slots c).Calm := by
  refine ⟨rfl, fun reply => ?_⟩
  rcases reply with err | h
  · exact trivial
  · refine (calm_bindingAll slots h q.params.entries).bind fun bound => ?_
    rcases bound with err | u
    · exact ⟨rfl, fun _ => trivial⟩
    · exact trivial

theorem calm_reusing (q : Query) (slots : Slots) (h : HandleId) : (q.reusing slots h).Calm := by
  refine ⟨rfl, fun _ => (calm_bindingAll slots h _).bind fun bound => ?_⟩
  rcases bound with err | u
  · exact ⟨rfl, fun _ => trivial⟩
  · exact trivial

theorem calm_leaving (q : Query) (c : ConnectionId) : (q.leaving c).Calm := by
  unfold leaving
  split
  next => exact trivial
  next =>
    split
    next => exact trivial
    next => exact q.calm_closing

theorem calm_readying (q : Query) (slots : Slots) : (q.readying slots).Calm := by
  unfold readying
  split
  next => exact trivial
  next c _ =>
    refine (q.calm_leaving c).bind fun q₁ => ?_
    cases hh : q₁.handle with
    | some h => exact q₁.calm_reusing slots h
    | none => exact q₁.calm_preparing slots c

/-! ## What one operation notes -/

variable {q q' : Query} {d' : Driver}

theorem lastConnection_close (q : Query) (d : Driver) :
    (q.close d).1.lastConnection = q.lastConnection := by
  unfold close
  cases q.handle with
  | none => rfl
  | some h => rfl

theorem lastConnection_leave (q : Query) (d : Driver) (c : ConnectionId) :
    (q.leave d c).1.lastConnection = q.lastConnection := by
  unfold leave
  cases hl : q.lastConnection with
  | none => exact hl
  | some last =>
    dsimp only
    by_cases hc : last = c
    · rw [if_pos hc, hl]
    · rw [if_neg hc, lastConnection_close, hl]

theorem lastConnection_bind (q : Query) (d : Driver) (key : ParamKey) (b : Binding) :
    (q.bind d key b).2.1.lastConnection = q.lastConnection := by
  unfold bind
  split
  next => rfl
  next =>
    dsimp only
    split
    next => rfl
    next => rfl

/-- A statement that does not get ready leaves the connection of the one before. -/
theorem lastConnection_of_error {e : Error} (he : q.ensurePrepared d = (.error e, q', d')) :
    q'.lastConnection = q.lastConnection := by
  cases hc : q.connection with
  | none =>
    unfold ensurePrepared at he
    rw [hc] at he
    cases he
    rfl
  | some c =>
    rw [← q.lastConnection_leave d c]
    rw [ensurePrepared_eq hc] at he
    split at he
    next h hh =>
      unfold reuse at he
      split at he
      next =>
        cases he
        rfl
      next => cases he
    next =>
      obtain ⟨rfl, -⟩ := prepareOn_error he
      rfl

/-- Calls that execute a statement leave the query with its current connection noted, others with
the one that was noted before. -/
def Tracks (q : Query) (K : List Exchange) (q' : Query) : Prop :=
  (lastExecuted K = none ∧ q'.lastConnection = q.lastConnection) ∨
    (lastExecuted K ≠ none ∧ q'.lastConnection = q.connection)

theorem tracks_of_calm {x : Script (Except Error α × Query)} (hx : x.Calm)
    (hlast : (x.play d).1.2.lastConnection = q.lastConnection) :
    Tracks q (x.exchanges d) (x.play d).1.2 :=
  Or.inl ⟨hx.lastExecuted d, hlast⟩

theorem Tracks.bind {x : Script (Except Error α × Query)}
    {f : Except Error α × Query → Script (Except Error β × Query)}
    (hx : Tracks q (x.exchanges d) (x.play d).1.2)
    (hf : ∀ r, (f r).Calm ∧ ∀ d, ((f r).play d).1.2 = r.2) :
    Tracks q ((x.bind f).exchanges d) ((x.bind f).play d).1.2 := by
  obtain ⟨hcalm, hkeep⟩ := hf (x.play d).1
  unfold Tracks
  rw [exchanges_bind, lastExecuted_append, hcalm.lastExecuted, Option.none_or, play_bind, hkeep]
  exact hx

theorem tracks_running (hs : q.Synced d) :
    Tracks q ((q.running d.slots).exchanges d) ((q.running d.slots).play d).1.2 := by
  have hready := outcome_readying q d
  have hcalm := (q.calm_readying d.slots).lastExecuted d
  unfold running Tracks
  rw [exchanges_bind, play_bind, lastExecuted_append, hcalm, Option.or_none]
  unfold outcome at hready
  rcases hplay : (q.readying d.slots).play d with ⟨⟨err | h, q₁⟩, d₁⟩
  · rw [hplay] at hready
    exact Or.inl ⟨rfl, lastConnection_of_error hready.symm⟩
  · -- a statement that is ready is executed, and it is one of the current connection
    rw [hplay] at hready
    obtain ⟨-, -, c, hc, -, hlast, -⟩ := ensurePrepared_ok hs hready.symm
    dsimp only
    unfold exchanges
    rw [play_ask]
    rcases (d₁.answer (.execute h)).1 with err | n
    · exact Or.inr ⟨Option.some_ne_none h, hlast.trans hc.symm⟩
    · exact Or.inr ⟨Option.some_ne_none h, hlast.trans hc.symm⟩

theorem tracks_fetchingAll (hs : q.Synced d) (f : List Row → Except Error Unit) :
    Tracks q ((q.fetchingAll d.slots f).exchanges d) ((q.fetchingAll d.slots f).play d).1.2 := by
  refine (tracks_running hs).bind fun r => ?_
  rcases r with ⟨err | ⟨n, h⟩, q₁⟩
  · exact ⟨trivial, fun _ => rfl⟩
  · exact ⟨⟨rfl, fun _ => trivial⟩, fun _ => rfl⟩

theorem tracks_fetchingRow (hs : q.Synced d) (f : Option Row → Except Error Unit) :
    Tracks q ((q.fetchingRow d.slots f).exchanges d) ((q.fetchingRow d.slots f).play d).1.2 := by
  refine (tracks_running hs).bind fun r => ?_
  rcases r with ⟨err | ⟨n, h⟩, q₁⟩
  · exact ⟨trivial, fun _ => rfl⟩
  · exact ⟨⟨rfl, fun _ => trivial⟩, fun _ => rfl⟩

theorem tracks_mapping (hs : q.Synced d) (option : Option MapOption) :
    Tracks q ((q.mapping d.slots option).exchanges d) ((q.mapping d.slots option).play d).1.2 := by
  unfold mapping
  cases option.or q.mapOption with
  | none => exact Or.inl ⟨rfl, rfl⟩
  | some option => exact tracks_fetchingAll hs _

theorem Operation.tracks (hs : q.Synced d) (op : Operation) :
    Tracks q ((op.script q d.slots).exchanges d) ((op.script q d.slots).play d).1.2 := by
  have hplay (op : Operation) : ((op.script q d.slots).play d).1.2 = (op.apply q d).2.1 :=
    congrArg (·.2.1) (outcome_script q d op)
  cases op with
  | bind key b =>
    refine tracks_of_calm (q.calm_binding d.slots key b) ?_
    rw [hplay]
    exact q.lastConnection_bind d key b
  | setParams ps =>
    refine tracks_of_calm ((calm_closing _).bind fun _ => trivial) ?_
    rw [hplay]
    exact lastConnection_close { q with params := ps } d
  | setConnection c => exact Or.inl ⟨rfl, rfl⟩
  | close =>
    refine tracks_of_calm (q.calm_closing.bind fun _ => trivial) ?_
    rw [hplay]
    exact q.lastConnection_close d
  | execute => exact (tracks_running hs).bind fun _ => ⟨trivial, fun _ => rfl⟩
  | fetchAll => exact tracks_fetchingAll hs _
  | fetchAllCells => exact tracks_fetchingAll hs _
  | fetchColumn => exact tracks_fetchingAll hs _
  | fetchRow => exact tracks_fetchingRow hs _
  | fetchRowCells => exact tracks_fetchingRow hs _
  | fetchScalar => exact tracks_fetchingRow hs _
  | fetchRecords α => exact tracks_fetchingAll hs _
  | fetchRecord α => exact tracks_fetchingRow hs _
  | fetchMap option => exact tracks_mapping hs option

/-! ## Over the life of a query -/

theorem Event.tracks (hs : q.Synced d) (event : Event) :
    Tracks q (event.exchanges q d) (event.step (q, d)).1 := by
  cases event with
  | operation op =>
    rw [step_operation]
    exact Operation.tracks hs op
  | write slots => exact Or.inl ⟨rfl, rfl⟩
  | surroundings servers connections handles => exact Or.inl ⟨rfl, rfl⟩

/-- What has been noted is the connection on which the statement executed last was prepared. -/
structure Remembers (q : Query) (J : List Exchange) : Prop where
  never : lastExecuted J = none → q.lastConnection = none
  last : ∀ h, lastExecuted J = some h →
    ∃ c text, ⟨.prepare c text, .ok h⟩ ∈ J ∧ q.lastConnection = some c

theorem Remembers.append_of_none {K : List Exchange} (hr : q.Remembers J)
    (hK : lastExecuted K = none) (hlast : q'.lastConnection = q.lastConnection) :
    q'.Remembers (J ++ K) := by
  have hJK : lastExecuted (J ++ K) = lastExecuted J := by
    rw [lastExecuted_append, hK, Option.none_or]
  refine ⟨fun hnone => ?_, fun h hh => ?_⟩
  · rw [hJK] at hnone
    exact hlast.trans (hr.never hnone)
  · rw [hJK] at hh
    obtain ⟨c, text, hmem, hc⟩ := hr.last h hh
    exact ⟨c, text, List.mem_append_left K hmem, hlast.trans hc⟩

theorem Remembers.event (hr : q.Remembers J) (hist : History J s) (hq : q.Stands d s)
    (hs : q.Synced d) (event : Event) :
    (event.step (q, d)).1.Remembers (J ++ event.exchanges q d) := by
  obtain ⟨hnone, hlast⟩ | ⟨hsome, hlast⟩ := event.tracks hs
  · exact hr.append_of_none hnone hlast
  · -- what is executed now was prepared on the current connection
    obtain ⟨h, hh⟩ := Option.ne_none_iff_exists'.1 hsome
    obtain ⟨r, hmem⟩ := mem_of_lastExecuted hh
    obtain ⟨s', hpath, -⟩ := event.path hq
    obtain ⟨c, text, hc, hprepared⟩ := hpath.executed hist hmem
    have hall : lastExecuted (J ++ event.exchanges q d) = some h := by
      rw [lastExecuted_append, hh, Option.some_or]
    refine ⟨fun hnone => ?_, fun g hg => ?_⟩
    · rw [hall] at hnone
      cases hnone
    · rw [hall] at hg
      cases hg
      exact ⟨c, text, hprepared, hlast.trans hc⟩

theorem remembers_life (hr : q.Remembers J) (hist : History J s) (hq : q.Stands d s)
    (hs : q.Synced d) (events : List Event) :
    (q.life d events).1.Remembers (J ++ q.journal d events) := by
  induction events generalizing q d s J with
  | nil =>
    show q.Remembers (J ++ [])
    rwa [List.append_nil]
  | cons event events ih =>
    obtain ⟨s₁, hpath, hq₁⟩ := event.path hq
    have hrest := ih (hr.event hist hq hs event) (hist.path hpath) hq₁ (synced_step hs event).1
    rwa [List.append_assoc] at hrest

end Query

/-- A statement is prepared once. -/
theorem History.prepared_once {c c' : ConnectionId} {text text' : String} (hist : History J s)
    (hmem : ⟨.prepare c text, .ok h⟩ ∈ J) (hmem' : ⟨.prepare c' text', .ok h⟩ ∈ J) : c = c' := by
  -- a call to a statement is not followed by its preparation
  have hlater : ∀ {before after : List Exchange} {x : Exchange} {c : ConnectionId} {text : String},
      J = before ++ ⟨.prepare c text, .ok h⟩ :: after → x ∈ before → x.handle? ≠ some h := by
    intro before after x c text heq hx hhandle
    have hne : callsTo h before ≠ [] :=
      List.ne_nil_of_mem (List.mem_filter.2 ⟨hx, decide_eq_true hhandle⟩)
    obtain ⟨-, hnil, -⟩ := hist.apart before c text _ after heq h hne
    simp [callsTo, handle?] at hnil
  obtain ⟨before, after, hJ⟩ := List.append_of_mem hmem'
  rw [hJ] at hmem
  obtain hbefore | hafter := List.mem_append.1 hmem
  · exact absurd rfl (hlater hJ hbefore)
  · obtain heq | hafter := List.mem_cons.1 hafter
    · cases heq
      rfl
    · obtain ⟨between, rest, rfl⟩ := List.append_of_mem hafter
      have hJ' : J = (before ++ ⟨.prepare c' text', .ok h⟩ :: between) ++
          ⟨.prepare c text, .ok h⟩ :: rest := by
        rw [hJ, List.append_assoc, List.cons_append]
      exact absurd rfl (hlater hJ' (List.mem_append_right _ List.mem_cons_self))

namespace Query

/-- A query is made, things are done with it and happen around it in any order, and calls fail at
any point. Its operations are their scripts played, and the driver's record is what it records of
the calls of these scripts. Then the query has no key of an inserted row exactly if these calls have
executed nothing. Otherwise the statement executed last was prepared on one connection, and the key
is the one that this connection gives now. -/
theorem life_insertedId (sql : String) (ps : Params) (option : Option MapOption)
    (connection : Option ConnectionId) (d₀ : Driver) (events : List Event) :
    let q₀ : Query := { sql, params := ps, mapOption := option, connection }
    let s := q₀.life d₀ events
    let calls := q₀.journal d₀ events
    (∀ (q : Query) d (op : Operation), (op.script q d.slots).outcome d = op.apply q d) ∧
      s.2.calls = d₀.calls ++ calls.flatMap Exchange.recorded ∧
      (s.1.insertedId s.2 = none ↔ ∀ h r, ⟨.execute h, r⟩ ∉ calls) ∧
      ∀ h, lastExecuted calls = some h → ∃ c,
        (∀ c', (∃ text, ⟨.prepare c' text, .ok h⟩ ∈ calls) ↔ c' = c) ∧
          s.1.insertedId s.2 = some (s.2.lastInsertId c) := by
  intro q₀ s calls
  have hstart : q₀.Stands d₀ ⟨0, none⟩ := ⟨Nat.zero_le _, rfl, by simp⟩
  have hremembers : q₀.Remembers [] := ⟨fun _ => rfl, fun h hh => nomatch hh⟩
  have hr := remembers_life hremembers (history_nil 0) hstart (synced_of_none rfl) events
  obtain ⟨_, hist, -⟩ := history_life (history_nil 0) hstart events
  rw [List.nil_append] at hr hist
  refine ⟨outcome_script, calls_life q₀ d₀ events, ?_, fun h hh => ?_⟩
  · rw [← lastExecuted_eq_none_iff]
    show s.1.lastConnection.map _ = none ↔ _
    rw [Option.map_eq_none_iff]
    refine ⟨fun hnone => ?_, hr.never⟩
    rw [Option.eq_none_iff_forall_ne_some]
    intro h hh
    obtain ⟨c, text, -, hc⟩ := hr.last h hh
    cases hnone.symm.trans hc
  · obtain ⟨c, text, hmem, hc⟩ := hr.last h hh
    refine ⟨c, fun c' => ⟨?_, ?_⟩, ?_⟩
    · rintro ⟨text', hmem'⟩
      exact hist.prepared_once hmem' hmem
    · rintro rfl
      exact ⟨text, hmem⟩
    · show s.1.lastConnection.map _ = _
      rw [hc, Option.map_some]

/-- The second connection fails to prepare the statement, and the first one is asked for the key. -/
example :
    let s := life { sql := "s", connection := some 0 }
      ⟨[{ insertId := some 5 }, { insertId := some 6 }],
        [⟨0, true, none, []⟩, ⟨1, true, some "refused", []⟩], [], {}, []⟩
      [.operation .execute, .operation (.setConnection 1), .operation .execute]
    s.1.handle = none ∧ s.1.insertedId s.2 = some (.int 5) := by
  decide +kernel

end Query

end SqlStatement
