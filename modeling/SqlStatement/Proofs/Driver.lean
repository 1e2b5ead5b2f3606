import SqlStatement.Driver.Basic
import SqlStatement.Proofs.Entries

/-!
# What calls change

* `Driver.executions`, `Driver.Quiet` : what the servers have recorded, and calls that record
  nothing;
* `Driver.Holds` : what is known of a prepared statement apart from its cursor;
* `Driver.Willing` : connections on which calls succeed.
-/

namespace SqlStatement.Driver

variable {d d' : Driver} {h : HandleId} {c : ConnectionId} {sql : String} {bs : List BoundParam}

def executions (d : Driver) : List (List Execution) := d.servers.map (·.executions)

def failures (d : Driver) : List (Option String) := d.servers.map (·.failure)

/-- Nothing has been executed, and slots, connections and failures are as they were. -/
structure Quiet (d d' : Driver) : Prop where
  slots : d'.slots = d.slots
  connections : d'.connections = d.connections
  executions : d'.executions = d.executions
  failures : d'.failures = d.failures

theorem Quiet.refl (d : Driver) : Quiet d d := ⟨rfl, rfl, rfl, rfl⟩

theorem Quiet.trans {d₁ d₂ d₃ : Driver} (h : Quiet d₁ d₂) (h' : Quiet d₂ d₃) : Quiet d₁ d₃ :=
  ⟨h'.slots.trans h.slots, h'.connections.trans h.connections, h'.executions.trans h.executions,
    h'.failures.trans h.failures⟩

/-- The handle is a statement prepared on the connection, with the bindings, whatever its cursor has
left. -/
def Holds (d : Driver) (h : HandleId) (c : ConnectionId) (sql : String) (bs : List BoundParam) :
    Prop :=
  ∃ rows, d.handles[h]? = some ⟨c, sql, bs, rows⟩

/-! ## Parts -/

theorem handle_of_getElem? {st : Handle} (hst : d.handles[h]? = some st) : d.handle h = st := by
  unfold handle
  rw [List.getD_eq_getElem?_getD, hst, Option.getD_some]

theorem map_modifyServer {α : Type} {g : Server → α} {f : Server → Server}
    (hf : ∀ s, g (f s) = g s) (id : ServerId) :
    (d.modifyServer id f).servers.map g = d.servers.map g := by
  unfold modifyServer
  apply List.ext_getElem?
  intro i
  simp only [List.getElem?_map, List.getElem?_modify]
  cases d.servers[i]? with
  | none => rfl
  | some s =>
    by_cases hi : id = i
    · simp [hi, hf]
    · simp [hi]

theorem failure_server (d : Driver) (id : ServerId) :
    (d.server id).failure = (d.failures[id]?).join := by
  unfold server failures
  rw [List.getD_eq_getElem?_getD, List.getElem?_map]
  cases d.servers[id]? with
  | none => rfl
  | some s => rfl

theorem Quiet.failure_serverOf (h : Quiet d d') (c : ConnectionId) :
    (d'.serverOf c).failure = (d.serverOf c).failure := by
  unfold serverOf connection
  rw [failure_server, failure_server, h.failures, h.connections]

theorem executions_modifyServer_add {s : Server} {e : Execution} {id : ServerId}
    (hs : s.executions = (d.server id).executions ++ [e]) :
    (d.modifyServer id fun _ => s).executions = d.executions.modify id (· ++ [e]) := by
  unfold executions modifyServer
  apply List.ext_getElem?
  intro i
  simp only [List.getElem?_map, List.getElem?_modify]
  cases hi : d.servers[i]? with
  | none => rfl
  | some t =>
    by_cases hid : id = i
    · subst hid
      have ht : d.server id = t := by
        unfold server
        rw [List.getD_eq_getElem?_getD, hi, Option.getD_some]
      simp [hs, ht]
    · simp [hid]

theorem holds_modifyHandle {f : Handle → Handle}
    (hf : ∀ rows, ∃ rows', f ⟨c, sql, bs, rows⟩ = ⟨c, sql, bs, rows'⟩) (hd : d.Holds h c sql bs)
    (g : HandleId) : (d.modifyHandle g f).Holds h c sql bs := by
  obtain ⟨rows, hrows⟩ := hd
  unfold Holds modifyHandle
  rw [List.getElem?_modify, hrows]
  obtain ⟨rows', hf⟩ := hf rows
  by_cases hg : g = h
  · exact ⟨rows', by simp [hg, hf]⟩
  · exact ⟨rows, by simp [hg]⟩

/-! ## Quiet calls -/

theorem closeCursor_quiet (d : Driver) (h : HandleId) : Quiet d (d.closeCursor h) := by
  refine ⟨rfl, rfl, ?_, ?_⟩
  · refine map_modifyServer ?_ _
    exact fun _ => rfl
  · refine map_modifyServer ?_ _
    exact fun _ => rfl

theorem holds_closeCursor (hd : d.Holds h c sql bs) (g : HandleId) :
    (d.closeCursor g).Holds h c sql bs :=
  holds_modifyHandle (fun _ => ⟨[], rfl⟩) hd g

theorem fetch_quiet (d : Driver) (h : HandleId) : Quiet d (d.fetch h).2 :=
  ⟨rfl, rfl, rfl, rfl⟩

theorem holds_fetch (hd : d.Holds h c sql bs) (g : HandleId) : (d.fetch g).2.Holds h c sql bs :=
  holds_modifyHandle (fun rows => ⟨rows.tail, rfl⟩) hd g

theorem fetchAll_quiet (d : Driver) (h : HandleId) : Quiet d (d.fetchAll h).2 :=
  ⟨rfl, rfl, rfl, rfl⟩

theorem holds_fetchAll (hd : d.Holds h c sql bs) (g : HandleId) :
    (d.fetchAll g).2.Holds h c sql bs :=
  holds_modifyHandle (fun _ => ⟨[], rfl⟩) hd g

theorem bind_quiet (d : Driver) (h : HandleId) (p : BoundParam) : Quiet d (d.bind h p).2 := by
  unfold bind
  split
  next => exact Quiet.refl d
  next => exact ⟨rfl, rfl, rfl, rfl⟩

theorem holds_bind_error {p : BoundParam} {e : Error} (hd : d.Holds h c sql bs)
    (hb : d.bind h p = (.error e, d')) : d'.Holds h c sql bs := by
  unfold bind at hb
  split at hb
  next =>
    cases hb
    exact hd
  next => cases hb

theorem holds_bind {p : BoundParam} (hd : d.Holds h c sql bs) (hb : d.bind h p = (.ok (), d')) :
    d'.Holds h c sql (Entries.insert bs p) := by
  obtain ⟨rows, hrows⟩ := hd
  unfold bind at hb
  split at hb
  next => cases hb
  next =>
    cases hb
    refine ⟨rows, ?_⟩
    show (d.handles.modify h _)[h]? = _
    rw [List.getElem?_modify, hrows]
    simp

theorem prepare_quiet (d : Driver) (c : ConnectionId) (sql : String) :
    Quiet d (d.prepare c sql).2 := by
  unfold prepare
  split
  next => exact Quiet.refl d
  next =>
    refine ⟨rfl, rfl, ?_, ?_⟩
    · refine map_modifyServer ?_ _
      exact fun _ => rfl
    · refine map_modifyServer ?_ _
      exact fun _ => rfl

theorem holds_prepare (hp : d.prepare c sql = (.ok h, d')) : d'.Holds h c sql [] := by
  unfold prepare at hp
  split at hp
  next => cases hp
  next =>
    cases hp
    refine ⟨[], ?_⟩
    show (d.handles ++ [_])[d.handles.length]? = _
    rw [List.getElem?_concat_length]

/-! ## Executions -/

theorem execute_error {e : Error} (he : d.execute h = (.error e, d')) :
    Quiet d d' ∧ d'.handles = d.handles := by
  unfold execute at he
  dsimp only at he
  split at he
  next =>
    cases he
    exact ⟨⟨rfl, rfl, rfl, rfl⟩, rfl⟩
  next => cases he

/-- An execution is recorded with the text and the bindings of the statement. -/
theorem execute_ok {n : Nat} (hd : d.Holds h c sql bs) (he : d.execute h = (.ok n, d')) :
    d'.slots = d.slots ∧ d'.connections = d.connections ∧ d'.Holds h c sql bs ∧
      d'.executions = d.executions.modify (d.connection c).server (· ++ [⟨sql, bs⟩]) := by
  obtain ⟨rows, hrows⟩ := hd
  have hst := handle_of_getElem? hrows
  unfold execute at he
  rw [hst] at he
  dsimp only at he
  split at he
  next => cases he
  next rows' s hs =>
    cases he
    refine ⟨rfl, rfl, holds_modifyHandle (fun _ => ⟨rows', rfl⟩) ⟨rows, hrows⟩ h, ?_⟩
    have hadd : s.executions = (d.server (d.connection c).server).executions ++ [⟨sql, bs⟩] := by
      unfold Server.execute at hs
      split at hs
      next => cases hs
      next =>
        cases hs
        rfl
    exact executions_modifyServer_add hadd

/-! ## Calls that succeed -/

/-- The connection prepares statements and binds the parameters, and its server executes. -/
structure Willing (d : Driver) (c : ConnectionId) (keys : List ParamKey) : Prop where
  prepares : (d.connection c).failPrepare = none
  binds : ∀ key ∈ keys, key ∉ (d.connection c).failBind
  executes : (d.serverOf c).failure = none

theorem Quiet.willing {keys : List ParamKey} (h : Quiet d d') (hw : d.Willing c keys) :
    d'.Willing c keys := by
  have hc : d'.connection c = d.connection c := by
    unfold connection
    rw [h.connections]
  refine ⟨?_, ?_, (h.failure_serverOf c).trans hw.executes⟩
  · rw [hc]
    exact hw.prepares
  · rw [hc]
    exact hw.binds

theorem Willing.prepare {keys : List ParamKey} (hw : d.Willing c keys) (sql : String) :
    ∃ h, (d.prepare c sql).1 = .ok h := by
  unfold Driver.prepare
  rw [hw.prepares]
  exact ⟨_, rfl⟩

theorem Willing.bind {keys : List ParamKey} (hw : d.Willing c keys) (hd : d.Holds h c sql bs)
    {p : BoundParam} (hp : p.key ∈ keys) : (d.bind h p).1 = .ok () := by
  obtain ⟨rows, hrows⟩ := hd
  unfold Driver.bind
  rw [handle_of_getElem? hrows]
  have hnot : ¬ (d.connection c).failBind.contains p.key = true := by
    rw [List.contains_iff_mem]
    exact hw.binds p.key hp
  rw [if_neg hnot]

theorem Willing.execute {keys : List ParamKey} (hw : d.Willing c keys)
    (hd : d.Holds h c sql bs) : ∃ n, (d.execute h).1 = .ok n := by
  obtain ⟨rows, hrows⟩ := hd
  have hf : ((d.record (.execute h)).serverOf c).failure = none := hw.executes
  unfold Driver.execute
  rw [handle_of_getElem? hrows]
  dsimp only
  unfold Server.execute
  rw [hf]
  exact ⟨_, rfl⟩

end SqlStatement.Driver
