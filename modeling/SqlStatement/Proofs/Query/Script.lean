import SqlStatement.Proofs.Driver.Script
import SqlStatement.Proofs.Query.Runs

/-!
# Queries as scripts

What a query asks of its driver, operation by operation.

* `Query.outcome_script` : each operation is its script played.
-/

namespace SqlStatement

namespace Script

variable {α β : Type}

def outcome (x : Script (Except Error α × Query)) (d : Driver) : Outcome α :=
  ((x.play d).1.1, (x.play d).1.2, (x.play d).2)

/-- What a script goes on with after another one that gives a result and a query. -/
theorem outcome_bind (x : Script (Except Error α × Query))
    (f : Except Error α × Query → Script (Except Error β × Query)) (d : Driver) :
    (x.bind f).outcome d = (f ((x.outcome d).1, (x.outcome d).2.1)).outcome (x.outcome d).2.2 := by
  unfold outcome
  rw [play_bind]

end Script

/-! ## The operations of a query -/

def bindingAll (slots : Slots) (h : HandleId) :
    List (ParamKey × Binding) → Script (Except Error Unit)
  | [] => .done (.ok ())
  | e :: es => .ask (.bind h (boundNow slots e)) fun
    | .error err => .done (.error err)
    | .ok () => bindingAll slots h es

namespace Query

def closing (q : Query) : Script Query :=
  match q.handle with
  | none => .done q
  | some h => .ask (.close h) fun _ => .done { q with handle := none }

def binding (q : Query) (slots : Slots) (key : ParamKey) (b : Binding) :
    Script (Except Error Unit × Query) :=
  match q.handle with
  | none => .done (.ok (), { q with params := q.params.bind key b })
  | some h =>
    .ask (.close h) fun _ =>
      .ask (.bind h (boundNow slots (key, b))) fun
        | .error e => .done (.error e, q)
        | .ok () => .done (.ok (), { q with params := q.params.bind key b })

def preparing (q : Query) (slots : Slots) (c : ConnectionId) :
    Script (Except Error HandleId × Query) :=
  .ask (.prepare c q.sql) fun
    | .error e => .done (.error e, q)
    | .ok h =>
      (bindingAll slots h q.params.entries).bind fun
        | .error e => .ask (.close h) fun _ => .done (.error e, q)
        | .ok () => .done (.ok h, { q with lastConnection := some c, handle := some h })

def reusing (q : Query) (slots : Slots) (h : HandleId) : Script (Except Error HandleId × Query) :=
  .ask (.close h) fun _ =>
    (bindingAll slots h (q.params.entries.filter (·.2.isSlot))).bind fun
      | .error e => .ask (.close h) fun _ => .done (.error e, { q with handle := none })
      | .ok () => .done (.ok h, q)

def leaving (q : Query) (c : ConnectionId) : Script Query :=
  match q.lastConnection with
  | none => .done q
  | some last => if last = c then .done q else q.closing

def readying (q : Query) (slots : Slots) : Script (Except Error HandleId × Query) :=
  match q.connection with
  | none => .done (.error .missingConnection, q)
  | some c =>
    (q.leaving c).bind fun q =>
      match q.handle with
      | some h => q.reusing slots h
      | none => q.preparing slots c

def running (q : Query) (slots : Slots) : Script (Except Error (Nat × HandleId) × Query) :=
  (q.readying slots).bind fun
    | (.error e, q) => .done (.error e, q)
    | (.ok h, q) => .ask (.execute h) fun
      | .error e => .done (.error e, q)
      | .ok n => .done (.ok (n, h), q)

def fetchingAll (q : Query) (slots : Slots) (f : List Row → Except Error Unit) :
    Script (Except Error Unit × Query) :=
  (q.running slots).bind fun
    | (.error e, q) => .done (.error e, q)
    | (.ok (_, h), q) => .ask (.fetchAll h) fun rows => .done (f rows, q)

def fetchingRow (q : Query) (slots : Slots) (f : Option Row → Except Error Unit) :
    Script (Except Error Unit × Query) :=
  (q.running slots).bind fun
    | (.error e, q) => .done (.error e, q)
    | (.ok (_, h), q) => .ask (.fetch h) fun row => .done (f row, q)

/-- Whether the row that has been fetched, if any, can be read as a record. -/
def readRecord (α : Type) [RecordOf α] : Option Row → Except Error Unit
  | none => .ok ()
  | some row => (row.record α).map fun _ => ()

def mapping (q : Query) (slots : Slots) (option : Option MapOption) :
    Script (Except Error Unit × Query) :=
  match option.or q.mapOption with
  | none => .done (.error .missingMapOption, q)
  | some option => q.fetchingAll slots fun rows => (FetchMap.build option rows).map fun _ => ()

namespace Operation

/-- What an operation asks of the driver while slots hold the given values. -/
def script (q : Query) (slots : Slots) : Operation → Script (Except Error Unit × Query)
  | bind key b => q.binding slots key b
  | setParams ps => (closing { q with params := ps }).bind fun q => .done (.ok (), q)
  | setConnection c => .done (.ok (), q.setConnection c)
  | close => q.closing.bind fun q => .done (.ok (), q)
  | execute => (q.running slots).bind fun (r, q) => .done (r.map fun _ => (), q)
  | fetchAll | fetchAllCells | fetchColumn => q.fetchingAll slots fun _ => .ok ()
  | fetchRow | fetchRowCells | fetchScalar => q.fetchingRow slots fun _ => .ok ()
  | fetchRecords α => q.fetchingAll slots fun rows => (rows.mapM (Row.record α)).map fun _ => ()
  | fetchRecord α => q.fetchingRow slots (readRecord α)
  | fetchMap option => q.mapping slots option

end Operation

/-! ## Playing the scripts -/

variable {q : Query} {d : Driver} {slots : Slots}

open Script

theorem play_bindingAll (hs : d.slots = slots) (h : HandleId) (es : List (ParamKey × Binding)) :
    (bindingAll slots h es).play d = bindAll d h es := by
  induction es generalizing d with
  | nil => rfl
  | cons e es ih =>
    subst hs
    have hslots : (d.bind h (boundNow d.slots e)).2.slots = d.slots :=
      Driver.slots_answer d (.bind h (boundNow d.slots e))
    have hanswer : d.answer (.bind h (boundNow d.slots e)) = d.bind h (boundNow d.slots e) := rfl
    have hbound : d.bind h (.of e.1 (e.2.current d.slots)) = d.bind h (boundNow d.slots e) := rfl
    unfold bindingAll bindAll
    rw [play_ask, hanswer, hbound]
    rcases hb : d.bind h (boundNow d.slots e) with ⟨err | u, d'⟩
    · rfl
    · rw [hb] at hslots
      exact ih hslots

theorem play_closing (q : Query) (d : Driver) : q.closing.play d = q.close d := by
  unfold closing close
  cases q.handle with
  | none => rfl
  | some h => rfl

theorem play_leaving (q : Query) (d : Driver) (c : ConnectionId) :
    (q.leaving c).play d = q.leave d c := by
  unfold leaving leave
  cases q.lastConnection with
  | none => rfl
  | some last =>
    by_cases hc : last = c
    · simp [hc, play]
    · simp [hc, play_closing]

theorem outcome_binding (q : Query) (d : Driver) (key : ParamKey) (b : Binding) :
    (q.binding d.slots key b).outcome d = q.bind d key b := by
  unfold binding bind outcome
  cases q.handle with
  | none => rfl
  | some h =>
    have hbound : (d.closeCursor h).bind h (.of key (b.current (d.closeCursor h).slots)) =
        (d.closeCursor h).bind h (boundNow d.slots (key, b)) := rfl
    have hanswer : (d.answer (.close h)).2.answer (.bind h (boundNow d.slots (key, b))) =
        (d.closeCursor h).bind h (boundNow d.slots (key, b)) := rfl
    dsimp only
    rw [hbound, play_ask, play_ask, hanswer]
    rcases (d.closeCursor h).bind h (boundNow d.slots (key, b)) with ⟨err | u, d'⟩
    · rfl
    · rfl

theorem outcome_preparing (q : Query) (d : Driver) (c : ConnectionId) :
    (q.preparing d.slots c).outcome d = q.prepareOn d c := by
  have hslots := (Driver.prepare_quiet d c q.sql).slots
  have hanswer : d.answer (.prepare c q.sql) = d.prepare c q.sql := rfl
  unfold preparing prepareOn outcome
  rw [play_ask, hanswer]
  rcases hp : d.prepare c q.sql with ⟨err | h, d₁⟩
  · rfl
  · rw [hp] at hslots
    dsimp only
    rw [play_bind, play_bindingAll hslots]
    rcases bindAll d₁ h q.params.entries with ⟨err | u, d₂⟩
    · rfl
    · rfl

theorem outcome_reusing (q : Query) (d : Driver) (h : HandleId) :
    (q.reusing d.slots h).outcome d = q.reuse d h := by
  have hanswer : (d.answer (.close h)).2 = d.closeCursor h := rfl
  have hslots : (d.closeCursor h).slots = d.slots := rfl
  unfold reusing reuse outcome
  rw [play_ask, hanswer, play_bind, play_bindingAll hslots]
  rcases bindAll (d.closeCursor h) h (q.params.entries.filter (·.2.isSlot)) with ⟨err | u, d₁⟩
  · rfl
  · rfl

theorem outcome_readying (q : Query) (d : Driver) :
    (q.readying d.slots).outcome d = q.ensurePrepared d := by
  cases hc : q.connection with
  | none =>
    unfold readying ensurePrepared
    rw [hc]
    rfl
  | some c =>
    have hslots := slots_play (q.leaving c) d
    rw [play_leaving] at hslots
    rw [ensurePrepared_eq hc]
    unfold readying outcome
    rw [hc]
    dsimp only
    rw [play_bind, play_leaving, ← hslots]
    cases (q.leave d c).1.handle with
    | some h => exact outcome_reusing (q.leave d c).1 (q.leave d c).2 h
    | none => exact outcome_preparing (q.leave d c).1 (q.leave d c).2 c

theorem outcome_running (q : Query) (d : Driver) :
    (q.running d.slots).outcome d = q.run d := by
  unfold running run
  rw [outcome_bind, outcome_readying]
  rcases q.ensurePrepared d with ⟨err | h, q₁, d₁⟩
  · rfl
  · have hanswer : d₁.answer (.execute h) = d₁.execute h := rfl
    unfold outcome
    dsimp only
    rw [play_ask, hanswer]
    rcases d₁.execute h with ⟨err | n, d₂⟩
    · rfl
    · rfl

theorem outcome_fetchingAll (q : Query) (d : Driver) (f : List Row → Except Error Unit) :
    (q.fetchingAll d.slots f).outcome d = (q.fetchAll d).bind f := by
  unfold fetchingAll fetchAll runAnd
  rw [outcome_bind, outcome_running]
  rcases q.run d with ⟨err | ⟨n, h⟩, q₁, d₁⟩
  · rfl
  · rfl

theorem outcome_fetchingRow (q : Query) (d : Driver) (f : Option Row → Except Error Unit) :
    (q.fetchingRow d.slots f).outcome d = (q.fetchRow d).bind f := by
  unfold fetchingRow fetchRow runAnd
  rw [outcome_bind, outcome_running]
  rcases q.run d with ⟨err | ⟨n, h⟩, q₁, d₁⟩
  · rfl
  · rfl

/-- Whether an outcome is a success does not depend on what is made of it. -/
theorem map_unit {α β : Type} (f : α → β) (o : Outcome α) :
    (o.map f).map (fun _ => ()) = o.bind fun _ => .ok () := by
  rcases o with ⟨err | a, rest⟩
  · rfl
  · rfl

theorem bind_unit {α β : Type} (f : α → Except Error β) (o : Outcome α) :
    (o.bind f).map (fun _ => ()) = o.bind fun a => (f a).map fun _ => () := by
  rcases o with ⟨err | a, rest⟩
  · rfl
  · rfl

theorem outcome_mapping (q : Query) (d : Driver) (option : Option MapOption) :
    (q.mapping d.slots option).outcome d = Outcome.map (fun _ => ()) (q.fetchMap d option) := by
  unfold mapping fetchMap
  cases option.or q.mapOption with
  | none => rfl
  | some option => exact (outcome_fetchingAll q d _).trans (bind_unit _ _).symm

/-- Each operation is its script played. -/
theorem outcome_script (q : Query) (d : Driver) (op : Operation) :
    (op.script q d.slots).outcome d = op.apply q d := by
  have hall := outcome_fetchingAll q d
  have hrow := outcome_fetchingRow q d
  cases op with
  | bind key b => exact outcome_binding q d key b
  | setParams ps =>
    have hclose := play_closing { q with params := ps } d
    unfold Operation.script outcome
    rw [play_bind, hclose]
    rfl
  | setConnection c => rfl
  | close =>
    have hclose := play_closing q d
    unfold Operation.script outcome
    rw [play_bind, hclose]
    rfl
  | execute =>
    unfold Operation.script
    rw [outcome_bind, outcome_running]
    show _ = Outcome.map (fun _ => ()) (Outcome.map (·.1) (q.run d))
    rw [map_unit]
    rcases q.run d with ⟨err | r, q₁, d₁⟩
    · rfl
    · rfl
  | fetchAll => exact (hall _).trans (map_eq_bind _ _).symm
  | fetchAllCells => exact (hall _).trans (map_unit _ _).symm
  | fetchColumn => exact (hall _).trans (map_unit _ _).symm
  | fetchRecords α => exact (hall _).trans (bind_unit _ _).symm
  | fetchRow => exact (hrow _).trans (map_eq_bind _ _).symm
  | fetchRowCells => exact (hrow _).trans (map_unit _ _).symm
  | fetchScalar => exact (hrow _).trans (map_unit _ _).symm
  | fetchRecord α =>
    refine (hrow _).trans (Eq.trans ?_ (bind_unit _ _).symm)
    refine congrArg (fun f => Outcome.bind f (q.fetchRow d)) (funext fun row => ?_)
    cases row with
    | none => rfl
    | some row =>
      show (row.record α).map _ = ((row.record α).map some).map _
      cases row.record α with
      | error err => rfl
      | ok r => rfl
  | fetchMap option => exact outcome_mapping q d option

end Query

end SqlStatement
