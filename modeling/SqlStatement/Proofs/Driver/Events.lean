import Mathlib.Data.List.GetD
import SqlStatement.Proofs.Driver.Script

/-!
# What happens to a driver

Several connections may lead to one server, and many statements may be in use on them at a time. So
a history is of the whole driver: the calls to all its statements, and what the servers are told in
between, in the order in which they come. What comes of them is read from the answers to the
calls and from the cursors of the statements.

* `Driver.Sound`, `Driver.Allows` : connections lead to servers and statements were prepared on
  connections, and events keep it so;
* `Driver.Happening`, `Driver.observe`, `Driver.history` : what comes of events.
-/

namespace SqlStatement

/-! ## What a server is told -/

/-- What a server is told on how to answer. -/
inductive Server.Setting where
  | setResult (rows : List Row)
  | enqueue (rows : List Row)
  | setAffected (n : Nat)
  | failWith (message : String)
  | setInsertId (id : Int64)
  | setAttribute (name : String) (v : Value)

namespace Server

def executed (s : Server) (x : Execution) : Server :=
  { s with executions := s.executions ++ [x], queued := s.queued.tail }

theorem execute_answered {s : Server} (hf : s.failure = none) (x : Execution) :
    s.execute x = (.ok s.nextResult, s.executed x) := by
  unfold execute
  split
  next message hmessage =>
    rw [hf] at hmessage
    cases hmessage
  next => rfl

theorem execute_refused {s : Server} {message : String} (hf : s.failure = some message)
    (x : Execution) : s.execute x = (.error (.driver (.failed message)), s) := by
  unfold execute
  rw [hf]

namespace Setting

def apply (s : Server) : Setting → Server
  | setResult rows => s.setResult rows
  | enqueue rows => s.enqueue rows
  | setAffected n => s.setAffected n
  | failWith message => s.failWith message
  | setInsertId id => s.setInsertId id
  | setAttribute name v => s.setAttribute name v

/-- The results that it queues. -/
def queued : Setting → List (List Row)
  | enqueue rows => [rows]
  | _ => []

theorem queued_apply (x : Setting) (s : Server) : (x.apply s).queued = s.queued ++ x.queued := by
  cases x with
  | enqueue rows => rfl
  | _ => exact (List.append_nil _).symm

theorem executions_apply (x : Setting) (s : Server) : (x.apply s).executions = s.executions := by
  cases x <;> rfl

end Setting

end Server

namespace Driver

/-! ## Events -/

/-- What happens to a driver. -/
inductive Event where
  | call (r : Request)
  | connect (hasAttributes : Bool)
  | share (c : ConnectionId) (hasAttributes : Bool)
  | tell (c : ConnectionId) (x : Server.Setting)

def Event.handle? : Event → Option HandleId
  | call (.bind h _) | call (.execute h) | call (.fetch h) | call (.fetchAll h) | call (.close h) =>
    some h
  | _ => none

def step (d : Driver) : Event → Driver
  | .call r => (d.answer r).2
  | .connect hasAttributes => d.connect hasAttributes
  | .share c hasAttributes => d.share c hasAttributes
  | .tell c x => d.modifyServerOf c x.apply

def after (d : Driver) (es : List Event) : Driver := es.foldl step d

def host (d : Driver) (h : HandleId) : ServerId := (d.connection (d.handle h).connection).server

/-- Connections lead to servers, and statements were prepared on connections. -/
structure Sound (d : Driver) : Prop where
  connections : ∀ c < d.connections.length, (d.connection c).server < d.servers.length
  handles : ∀ h < d.handles.length, (d.handle h).connection < d.connections.length

/-- The connection or statement that the event is about is there. -/
def Possible (d : Driver) : Event → Prop
  | .connect _ => True
  | .call (.prepare c _) | .share c _ | .tell c _ => c < d.connections.length
  | .call (.bind h _) | .call (.execute h) | .call (.fetch h) | .call (.fetchAll h)
  | .call (.close h) => h < d.handles.length

instance (d : Driver) : (e : Event) → Decidable (d.Possible e)
  | .connect _ => .isTrue trivial
  | .call (.prepare c _) | .share c _ | .tell c _ =>
    inferInstanceAs (Decidable (c < d.connections.length))
  | .call (.bind h _) | .call (.execute h) | .call (.fetch h) | .call (.fetchAll h)
  | .call (.close h) => inferInstanceAs (Decidable (h < d.handles.length))

/-- Each event is possible after those before it. -/
def Allows : Driver → List Event → Prop
  | _, [] => True
  | d, e :: es => d.Possible e ∧ (d.step e).Allows es

instance decidableAllows : (d : Driver) → (es : List Event) → Decidable (d.Allows es)
  | _, [] => .isTrue trivial
  | d, e :: es =>
    have := decidableAllows (d.step e) es
    inferInstanceAs (Decidable (d.Possible e ∧ (d.step e).Allows es))

/-! ## Histories -/

/-- Something that comes of an event. -/
inductive Happening where
  /-- the server has one more result in its queue -/
  | queued (s : ServerId) (rows : List Row)
  /-- the parameter is bound to the statement -/
  | bound (h : HandleId) (p : BoundParam)
  /-- the statement is executed on the server and has the rows before its cursor; whether there was
  a result in the queue to take -/
  | delivered (s : ServerId) (h : HandleId) (x : Execution) (taken : Bool) (rows : List Row)
  /-- the rows are not before the cursor of the statement any longer -/
  | released (h : HandleId) (rows : List Row)
  deriving DecidableEq

def observe (d : Driver) : Event → List Happening
  | .tell c x => x.queued.map (.queued (d.connection c).server)
  | .call (.bind h p) =>
    match (d.bind h p).1 with
    | .ok _ => [.bound h p]
    | .error _ => []
  | .call (.execute h) =>
    match (d.execute h).1 with
    | .ok _ =>
      [.released h (d.handle h).cursor,
        .delivered (d.host h) h ⟨(d.handle h).sql, (d.handle h).bindings⟩
          (!(d.server (d.host h)).queued.isEmpty) ((d.execute h).2.handle h).cursor]
    | .error _ => []
  | .call (.fetch h) => [.released h (d.fetch h).1.toList]
  | .call (.fetchAll h) => [.released h (d.fetchAll h).1]
  | .call (.close h) => [.released h (d.handle h).cursor]
  | .call (.prepare _ _) | .connect _ | .share _ _ => []

def history : Driver → List Event → List Happening
  | _, [] => []
  | d, e :: es => d.observe e ++ (d.step e).history es

namespace Happening

/-- The server whose queue or record it concerns. -/
def server? : Happening → Option ServerId
  | queued s _ | delivered s _ _ _ _ => some s
  | bound _ _ | released _ _ => none

/-- The statement whose bindings or cursor it concerns. -/
def handle? : Happening → Option HandleId
  | bound h _ | delivered _ h _ _ _ | released h _ => some h
  | queued _ _ => none

/-- The results put in the queue of the server. -/
def puts (s : ServerId) : Happening → List (List Row)
  | queued t rows => if t = s then [rows] else []
  | _ => []

def takes (s : ServerId) : Happening → List (List Row)
  | delivered t _ _ true rows => if t = s then [rows] else []
  | _ => []

def executes (s : ServerId) : Happening → List Execution
  | delivered t _ x _ _ => if t = s then [x] else []
  | _ => []

def binds (h : HandleId) : Happening → List BoundParam
  | bound g p => if g = h then [p] else []
  | _ => []

def delivers (h : HandleId) : Happening → List Row
  | delivered _ g _ _ rows => if g = h then rows else []
  | _ => []

/-- The rows that the statement gives, or gives up when its cursor is closed or it is executed
again. -/
def releases (h : HandleId) : Happening → List Row
  | released g rows => if g = h then rows else []
  | _ => []

theorem quiet_of_server? {x : Happening} {s : ServerId} (hx : x.server? ≠ some s) :
    x.puts s = [] ∧ x.takes s = [] ∧ x.executes s = [] := by
  cases x with
  | queued t rows =>
    have ht : t ≠ s := fun ht => hx (congrArg some ht)
    simp [puts, takes, executes, ht]
  | delivered t h e taken rows =>
    have ht : t ≠ s := fun ht => hx (congrArg some ht)
    cases taken <;> simp [puts, takes, executes, ht]
  | bound => exact ⟨rfl, rfl, rfl⟩
  | released => exact ⟨rfl, rfl, rfl⟩

theorem quiet_of_handle? {x : Happening} {h : HandleId} (hx : x.handle? ≠ some h) :
    x.binds h = [] ∧ x.delivers h = [] ∧ x.releases h = [] := by
  cases x with
  | queued => exact ⟨rfl, rfl, rfl⟩
  | bound g p =>
    have hg : g ≠ h := fun hg => hx (congrArg some hg)
    simp [binds, delivers, releases, hg]
  | delivered s g e taken rows =>
    have hg : g ≠ h := fun hg => hx (congrArg some hg)
    simp [binds, delivers, releases, hg]
  | released g rows =>
    have hg : g ≠ h := fun hg => hx (congrArg some hg)
    simp [binds, delivers, releases, hg]

end Happening

variable {d d' : Driver} {e : Event} {es : List Event} {s t : ServerId} {h g : HandleId}
  {c : ConnectionId}

/-! ## Parts of a changed driver -/

section Parts

variable {α β : Type} {l : List α} {f : α → α} {i j : Nat}

theorem getD_modify_self (hi : i < l.length) (f : α → α) (a : α) :
    (l.modify i f).getD i a = f (l.getD i a) := by
  rw [List.getD_eq_getElem?_getD, List.getD_eq_getElem?_getD, List.getElem?_modify,
    List.getElem?_eq_getElem hi]
  simp

theorem getD_modify_of_ne (hij : i ≠ j) (l : List α) (f : α → α) (a : α) :
    (l.modify i f).getD j a = l.getD j a := by
  rw [List.getD_eq_getElem?_getD, List.getD_eq_getElem?_getD, List.getElem?_modify]
  simp [hij]

theorem proj_getD_modify {k : α → β} (hk : ∀ x, k (f x) = k x) (l : List α) (i j : Nat) (a : α) :
    k ((l.modify i f).getD j a) = k (l.getD j a) := by
  rw [List.getD_eq_getElem?_getD, List.getD_eq_getElem?_getD, List.getElem?_modify]
  cases l[j]? with
  | none => rfl
  | some x =>
    by_cases hij : i = j
    · simp [hij, hk]
    · simp [hij]

theorem proj_getD_snoc {k : α → β} {x a : α} (hk : k x = k a) (l : List α) (i : Nat) :
    k ((l ++ [x]).getD i a) = k (l.getD i a) := by
  by_cases hi : i < l.length
  · rw [List.getD_append _ _ _ _ hi]
  · rw [List.getD_append_right _ _ _ _ (Nat.le_of_not_lt hi),
      List.getD_eq_default _ _ (Nat.le_of_not_lt hi)]
    cases i - l.length with
    | zero => exact hk
    | succ n => rfl

theorem forall_getD_snoc {P : α → Prop} {a : Nat → α} {x : α}
    (hl : ∀ i < l.length, P (l.getD i (a i))) (hx : P x) :
    ∀ i < (l ++ [x]).length, P ((l ++ [x]).getD i (a i)) := by
  intro i hi
  rw [List.length_append, List.length_singleton] at hi
  obtain hi | rfl := Nat.lt_succ_iff_lt_or_eq.1 hi
  · rw [List.getD_append _ _ _ _ hi]
    exact hl i hi
  · rw [List.getD_append_right _ _ _ _ (Nat.le_refl _), Nat.sub_self]
    exact hx

end Parts

theorem server_modifyServer (hs : s < d.servers.length) (f : Server → Server) :
    (d.modifyServer s f).server s = f (d.server s) :=
  getD_modify_self hs f {}

theorem server_modifyServer_of_ne (hst : s ≠ t) (d : Driver) (f : Server → Server) :
    (d.modifyServer s f).server t = d.server t :=
  getD_modify_of_ne hst d.servers f {}

theorem handle_modifyHandle (hh : h < d.handles.length) (f : Handle → Handle) :
    (d.modifyHandle h f).handle h = f (d.handle h) :=
  getD_modify_self hh f _

/-! ## Bindings and executions -/

theorem bind_cases (d : Driver) (h : HandleId) (p : BoundParam) :
    (∃ error, d.bind h p = (.error error, d)) ∨
      d.bind h p = (.ok (), (d.modifyHandle h fun st =>
        { st with bindings := Entries.insert st.bindings p }).record (.bind h p)) := by
  unfold bind
  split
  next => exact .inl ⟨_, rfl⟩
  next => exact .inr rfl

theorem execute_refused {message : String}
    (hf : (d.server (d.host h)).failure = some message) :
    d.execute h = (.error (.driver (.failed message)), d.record (.execute h)) := by
  have hserver :
      ((d.record (.execute h)).serverOf (d.handle h).connection).failure = some message := hf
  unfold execute
  dsimp only
  rw [Server.execute_refused hserver]

theorem execute_answered (hf : (d.server (d.host h)).failure = none) :
    d.execute h = (.ok (d.server (d.host h)).affected,
      ((d.record (.execute h)).modifyServer (d.host h) fun _ =>
          (d.server (d.host h)).executed ⟨(d.handle h).sql, (d.handle h).bindings⟩).modifyHandle h
        fun st => { st with cursor := (d.server (d.host h)).nextResult }) := by
  have hserver : ((d.record (.execute h)).serverOf (d.handle h).connection).failure = none := hf
  unfold execute
  dsimp only
  rw [Server.execute_answered hserver]
  rfl

theorem observe_refused {message : String}
    (hf : (d.server (d.host h)).failure = some message) : d.observe (.call (.execute h)) = [] := by
  unfold observe
  dsimp only
  rw [execute_refused hf]

theorem handle_execute (hh : h < d.handles.length) (hf : (d.server (d.host h)).failure = none) :
    (d.execute h).2.handle h =
      { d.handle h with cursor := (d.server (d.host h)).nextResult } := by
  rw [execute_answered hf]
  exact handle_modifyHandle hh _

/-- What was before the cursor is given up for the result that is next. -/
theorem observe_answered (hh : h < d.handles.length)
    (hf : (d.server (d.host h)).failure = none) :
    d.observe (.call (.execute h)) =
      [.released h (d.handle h).cursor,
        .delivered (d.host h) h ⟨(d.handle h).sql, (d.handle h).bindings⟩
          (!(d.server (d.host h)).queued.isEmpty) (d.server (d.host h)).nextResult] := by
  have hreply : (d.execute h).1 = .ok (d.server (d.host h)).affected := by rw [execute_answered hf]
  unfold observe
  dsimp only
  rw [hreply, handle_execute hh hf]

/-! ## Drivers stay sound -/

theorem Sound.host_lt (hd : d.Sound) (hh : h < d.handles.length) :
    d.host h < d.servers.length :=
  hd.connections _ (hd.handles h hh)

theorem Sound.modifyServer (hd : d.Sound) (s : ServerId) (f : Server → Server) :
    (d.modifyServer s f).Sound := by
  refine ⟨fun c hc => ?_, hd.handles⟩
  show (d.connection c).server < (d.servers.modify s f).length
  rw [List.length_modify]
  exact hd.connections c hc

theorem Sound.modifyHandle {f : Handle → Handle} (hd : d.Sound)
    (hf : ∀ st, (f st).connection = st.connection) (h : HandleId) : (d.modifyHandle h f).Sound := by
  refine ⟨hd.connections, fun g hg => ?_⟩
  have hsame : ((d.modifyHandle h f).handle g).connection = (d.handle g).connection :=
    proj_getD_modify hf d.handles h g _
  have hlt : g < (d.handles.modify h f).length := hg
  rw [List.length_modify] at hlt
  rw [hsame]
  exact hd.handles g hlt

theorem Sound.record (hd : d.Sound) (x : Call) : (d.record x).Sound := ⟨hd.connections, hd.handles⟩

theorem Sound.handles_snoc (hd : d.Sound) (x : Connection) :
    ∀ h < d.handles.length, (d.handle h).connection < (d.connections ++ [x]).length := by
  intro h hh
  rw [List.length_append]
  exact Nat.lt_add_right _ (hd.handles h hh)

theorem Sound.share (hd : d.Sound) (hc : c < d.connections.length) (hasAttributes : Bool) :
    (d.share c hasAttributes).Sound := by
  refine ⟨?_, hd.handles_snoc _⟩
  exact forall_getD_snoc (P := fun x : Connection => x.server < d.servers.length) hd.connections
    (hd.connections c hc)

theorem Sound.connect (hd : d.Sound) (hasAttributes : Bool) : (d.connect hasAttributes).Sound := by
  have hlength : (d.connect hasAttributes).servers.length = d.servers.length + 1 :=
    List.length_append
  refine ⟨?_, hd.handles_snoc _⟩
  rw [hlength]
  exact forall_getD_snoc (P := fun x : Connection => x.server < d.servers.length + 1)
    (fun c hc => Nat.lt_succ_of_lt (hd.connections c hc)) (Nat.lt_succ_self _)

theorem Sound.prepare (hd : d.Sound) (hc : c < d.connections.length) (sql : String) :
    (d.prepare c sql).2.Sound := by
  unfold Driver.prepare
  split
  next => exact hd
  next =>
    obtain ⟨hconnections, hhandles⟩ := hd.modifyServer (d.connection c).server
      fun s => { s with prepared := s.prepared ++ [sql] }
    exact ⟨hconnections,
      forall_getD_snoc (P := fun st : Handle => st.connection < d.connections.length) hhandles hc⟩

theorem Sound.execute (hd : d.Sound) (h : HandleId) : (d.execute h).2.Sound := by
  cases hf : (d.server (d.host h)).failure with
  | some message =>
    rw [execute_refused hf]
    exact hd.record _
  | none =>
    rw [execute_answered hf]
    refine Sound.modifyHandle ?_ ?_ h
    · exact (hd.record _).modifyServer _ _
    · exact fun _ => rfl

theorem Sound.step (hd : d.Sound) (he : d.Possible e) : (d.step e).Sound := by
  cases e with
  | connect hasAttributes => exact hd.connect hasAttributes
  | share c hasAttributes => exact hd.share he hasAttributes
  | tell c x => exact hd.modifyServer _ x.apply
  | call r =>
    cases r with
    | prepare c sql => exact hd.prepare he sql
    | bind h p =>
      show (d.bind h p).2.Sound
      obtain ⟨error, hbind⟩ | hbind := bind_cases d h p
      · rw [hbind]
        exact hd
      · rw [hbind]
        refine Sound.record (hd.modifyHandle ?_ h) _
        exact fun _ => rfl
    | execute h => exact hd.execute h
    | fetch h =>
      refine hd.modifyHandle ?_ h
      exact fun _ => rfl
    | fetchAll h =>
      refine hd.modifyHandle ?_ h
      exact fun _ => rfl
    | close h =>
      refine ((hd.record _).modifyHandle ?_ h).modifyServer _ _
      exact fun _ => rfl

end Driver

end SqlStatement
