import SqlStatement.Proofs.Query.Reuse

/-!
# Queries over their life

A query is changed and run in any order. In between slots are written, other statements run, and
connections begin or cease to fail.

* `Query.apply_ran`, `Query.apply_edited` : what one operation does;
* `Query.life_records` : whenever a query is run, it records what its parameters are now, which is
  what it would record when prepared afresh.
-/

namespace SqlStatement.Query

open Driver

/-! ## Operations -/

/-- What can be done with a query. -/
inductive Operation : Type 1 where
  /-- binding a key to a value, to a slot, or to a slot that is read as an integer -/
  | bind (key : ParamKey) (binding : Binding)
  | setParams (ps : Params)
  | setConnection (c : ConnectionId)
  | close
  | execute
  | fetchAll
  | fetchRow
  | fetchAllCells
  | fetchRowCells
  | fetchColumn
  | fetchScalar
  | fetchRecords (α : Type) [RecordOf α]
  | fetchRecord (α : Type) [RecordOf α]
  | fetchMap (option : Option MapOption)

namespace Operation

def runs : Operation → Bool
  | bind _ _ | setParams _ | setConnection _ | close => false
  | _ => true

/-- The operation, with whether it succeeds for its result. -/
def apply (q : Query) (d : Driver) : Operation → Outcome Unit
  | bind key binding => q.bind d key binding
  | setParams ps => (.ok (), q.setParams d ps)
  | setConnection c => (.ok (), q.setConnection c, d)
  | close => (.ok (), q.close d)
  | execute => Outcome.map (fun _ => ()) (q.execute d)
  | fetchAll => (q.fetchAll d).map fun _ => ()
  | fetchRow => (q.fetchRow d).map fun _ => ()
  | fetchAllCells => (q.fetchAllCells d).map fun _ => ()
  | fetchRowCells => (q.fetchRowCells d).map fun _ => ()
  | fetchColumn => (q.fetchColumn d).map fun _ => ()
  | fetchScalar => (q.fetchScalar d).map fun _ => ()
  | fetchRecords α => (q.fetchRecords α d).map fun _ => ()
  | fetchRecord α => (q.fetchRecord α d).map fun _ => ()
  | fetchMap option => (q.fetchMap d option).map fun _ => ()

end Operation

variable {q : Query} {d : Driver}

theorem execute_ran (hs : q.Synced d) : Ran q d (q.execute d) := (run_ran hs).map (·.1)

theorem fetchMap_ran (hs : q.Synced d) (option : Option MapOption) :
    Ran q d (q.fetchMap d option) := by
  unfold fetchMap
  split
  next => exact ⟨hs, Kept.refl q, rfl, Or.inl rfl, fun a ha => nomatch ha⟩
  next => exact (fetchAll_ran hs).bind _

theorem apply_ran (hs : q.Synced d) {op : Operation} (h : op.runs = true) :
    Ran q d (op.apply q d) := by
  cases op with
  | bind key binding => cases h
  | setParams ps => cases h
  | setConnection c => cases h
  | close => cases h
  | execute => exact (execute_ran hs).map _
  | fetchAll => exact (fetchAll_ran hs).map _
  | fetchRow => exact (fetchRow_ran hs).map _
  | fetchAllCells => exact ((fetchAll_ran hs).map _).map _
  | fetchRowCells => exact ((fetchRow_ran hs).map _).map _
  | fetchColumn => exact ((fetchAll_ran hs).map _).map _
  | fetchScalar => exact ((fetchRow_ran hs).map _).map _
  | fetchRecords α => exact ((fetchAll_ran hs).bind _).map _
  | fetchRecord α => exact ((fetchRow_ran hs).bind _).map _
  | fetchMap option => exact (fetchMap_ran hs option).map _

/-- A change of the query runs nothing, keeps its statement in step with it, and changes no
parameters if it fails. -/
structure Edited (q : Query) (d : Driver) (o : Outcome Unit) : Prop where
  synced : o.2.1.Synced o.2.2
  sql : o.2.1.sql = q.sql
  quiet : Quiet d o.2.2
  failed : ∀ e, o.1 = .error e → o.2.1.params = q.params

/-- Binding reaches the kept statement before the query. A statement that refuses stays as it is, and
so does the query. -/
theorem bind_edited (hs : q.Synced d) (key : ParamKey) (binding : Binding) :
    Edited q d (q.bind d key binding) := by
  unfold bind
  cases hh : q.handle with
  | none => exact ⟨synced_of_none rfl, rfl, Quiet.refl d, fun e he => nomatch he⟩
  | some h =>
    obtain ⟨c, bs, hlast, hd, hbs⟩ := hs h hh
    -- closing the cursor leaves the slots, so the value bound is the one that is current before
    have hclosed := holds_closeCursor hd h
    have hclose := closeCursor_quiet d h
    have hbind := bind_quiet (d.closeCursor h) h (boundNow d.slots (key, binding))
    dsimp only
    cases hb : (d.closeCursor h).bind h (boundNow d.slots (key, binding)) with
    | mk result d₁ =>
      rw [hb] at hbind
      have hbound : (d.closeCursor h).bind h
          (.of key (binding.current (d.closeCursor h).slots)) = (result, d₁) := by
        rw [hclose.slots]
        exact hb
      rw [hbound]
      cases result with
      | error e =>
        refine ⟨fun g hg => ?_, rfl, hclose.trans hbind, fun _ _ => rfl⟩
        rw [hh] at hg
        cases hg
        exact ⟨c, bs, hlast, holds_bind_error hclosed hb, hbs⟩
      | ok u =>
        refine ⟨fun g hg => ?_, rfl, hclose.trans hbind, fun e he => nomatch he⟩
        cases hg
        exact ⟨c, _, hlast, holds_bind hclosed hb, Entries.forall₂_insert key?_eq_of_bound
          (bound_boundNow d.slots (key, binding)) hbs⟩

theorem apply_edited (hs : q.Synced d) {op : Operation} (h : op.runs = false) :
    Edited q d (op.apply q d) := by
  cases op with
  | bind key binding => exact bind_edited hs key binding
  | setParams ps =>
    obtain ⟨hkept, hquiet, hnone⟩ := Query.close_spec { q with params := ps } d
    exact ⟨synced_of_none hnone, hkept.sql, hquiet, fun e he => nomatch he⟩
  | setConnection c => exact ⟨hs, rfl, Quiet.refl d, fun e he => nomatch he⟩
  | close =>
    obtain ⟨hkept, hquiet, hnone⟩ := q.close_spec d
    exact ⟨synced_of_none hnone, hkept.sql, hquiet, fun e he => nomatch he⟩
  | execute => cases h
  | fetchAll => cases h
  | fetchRow => cases h
  | fetchAllCells => cases h
  | fetchRowCells => cases h
  | fetchColumn => cases h
  | fetchScalar => cases h
  | fetchRecords α => cases h
  | fetchRecord α => cases h
  | fetchMap option => cases h

theorem synced_apply (hs : q.Synced d) (op : Operation) :
    (op.apply q d).2.1.Synced (op.apply q d).2.2 ∧ (op.apply q d).2.1.sql = q.sql := by
  cases h : op.runs with
  | true =>
    have hr := apply_ran hs h
    exact ⟨hr.synced, hr.kept.sql⟩
  | false =>
    have he := apply_edited hs h
    exact ⟨he.synced, he.sql⟩

/-! ## All that can happen -/

/-- Something that happens to a query or around it. -/
inductive Event : Type 1 where
  | operation (op : Operation)
  /-- slots are written or made -/
  | write (slots : Slots)
  /-- servers and connections change in any way, in particular in what fails, and other statements
  are prepared -/
  | surroundings (servers : List Server) (connections : List Connection) (handles : List Handle)

def Event.step : Query × Driver → Event → Query × Driver
  | (q, d), operation op => (op.apply q d).2
  | (q, d), write slots => (q, { d with slots })
  | (q, d), surroundings servers connections handles =>
    (q, { d with servers, connections, handles := d.handles ++ handles })

def life (q : Query) (d : Driver) (events : List Event) : Query × Driver :=
  events.foldl Event.step (q, d)

theorem synced_step (hs : q.Synced d) (event : Event) :
    (event.step (q, d)).1.Synced (event.step (q, d)).2 ∧ (event.step (q, d)).1.sql = q.sql := by
  cases event with
  | operation op => exact synced_apply hs op
  | write slots => exact ⟨hs, rfl⟩
  | surroundings servers connections handles =>
    refine ⟨fun h hh => ?_, rfl⟩
    obtain ⟨c, bs, hlast, ⟨rows, hrows⟩, hbs⟩ := hs h hh
    refine ⟨c, bs, hlast, ⟨rows, ?_⟩, hbs⟩
    show (d.handles ++ handles)[h]? = some ⟨c, q.sql, bs, rows⟩
    rw [List.getElem?_append_left (List.getElem?_eq_some_iff.1 hrows).1, hrows]

theorem synced_life (hs : q.Synced d) (events : List Event) :
    (q.life d events).1.Synced (q.life d events).2 ∧ (q.life d events).1.sql = q.sql := by
  induction events generalizing q d with
  | nil => exact ⟨hs, rfl⟩
  | cons event events ih =>
    obtain ⟨hs', hsql⟩ := synced_step hs event
    obtain ⟨hrest, hsqls⟩ := ih hs'
    exact ⟨hrest, hsqls.trans hsql⟩

/-- Whatever has happened since a query was made: an operation either leaves the records of all
servers or runs the statement, and then it adds the query's text with all its parameters as they are
now to the record of one server. It does so whenever it succeeds. Prepared afresh on a connection on
which all calls succeed, the query adds the same. An operation that fails changes no parameters. -/
theorem life_records (sql : String) (ps : Params) (option : Option MapOption)
    (connection : Option ConnectionId) (d₀ : Driver) (events : List Event) (op : Operation) :
    let s := life { sql, params := ps, mapOption := option, connection } d₀ events
    let o := op.apply s.1 s.2
    s.1.sql = sql ∧
      (o.2.2.executions = s.2.executions ∨ op.runs ∧ s.1.Recorded s.2 o.2.2) ∧
      (op.runs → ∀ a, o.1 = .ok a → s.1.Recorded s.2 o.2.2) ∧
      (op.runs → o.2.1.params = s.1.params) ∧
      (∀ e, o.1 = .error e → o.2.1.params = s.1.params) ∧
      ∀ c d, d.slots = s.2.slots → d.Willing c s.1.params.keys →
        ((s.1.afresh c).execute d).2.2.executions =
          d.executions.modify (d.connection c).server (· ++ [s.1.record s.2.slots]) := by
  intro s o
  obtain ⟨hs, hsql⟩ : s.1.Synced s.2 ∧ s.1.sql = sql :=
    synced_life (synced_of_none rfl) events
  have hafresh : ∀ c d, d.slots = s.2.slots → d.Willing c s.1.params.keys →
      ((s.1.afresh c).execute d).2.2.executions =
        d.executions.modify (d.connection c).server (· ++ [s.1.record s.2.slots]) := by
    intro c d hslots hw
    rw [execute_afresh hw, hslots]
  cases h : op.runs with
  | true =>
    have hr : Ran s.1 s.2 o := apply_ran hs h
    exact ⟨hsql, hr.recorded.imp_right fun hrecorded => ⟨rfl, hrecorded⟩, fun _ => hr.success,
      fun _ => hr.kept.params, fun _ _ => hr.kept.params, hafresh⟩
  | false =>
    have he : Edited s.1 s.2 o := apply_edited hs h
    exact ⟨hsql, Or.inl he.quiet.executions, (fun hruns => nomatch hruns),
      (fun hruns => nomatch hruns), he.failed, hafresh⟩

/-- A key is bound to a slot, and while the statement is kept the slot is written and the key bound
to a value. -/
example :
    ((life { sql := "s" } ⟨[{}], [⟨0, true, none, []⟩], [], ⟨[.int 1]⟩, []⟩
      [.operation (.setConnection 0), .operation (.bind (.positional 1) (.slot 0)),
        .operation .execute, .write ⟨[.text "2"]⟩, .operation .fetchAll,
        .operation (.bind (.positional 1) (.value .null)), .operation .execute]).2.executions) =
      [[⟨"s", [⟨.positional 1, .int 1, .integer⟩]⟩, ⟨"s", [⟨.positional 1, .text "2", .integer⟩]⟩,
        ⟨"s", [⟨.positional 1, .null, .null⟩]⟩]] := by
  decide +kernel

end SqlStatement.Query
