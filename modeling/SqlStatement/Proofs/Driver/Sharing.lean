import SqlStatement.Proofs.Driver.Events

/-!
# Statements that share a server

The queued results and the record of executions are the server's, and the bindings and the cursor
are the statement's. A history accounts for each of them by its own happenings only, whatever else
happens in between. This is said of one event and follows for all of them.

* `Driver.Ledger`, `Driver.Account` : what is to be accounted for of a server and of a statement;
* `Driver.history_accounts` : what a history accounts for, and the execution that comes next.
-/

namespace SqlStatement.Driver

open Happening (puts takes executes binds delivers releases)

variable {d d' : Driver} {e : Event} {es : List Event} {s t : ServerId} {h g : HandleId}
  {c : ConnectionId}

/-! ## What a server's happenings account for -/

section Ledger

variable {d₁ d₂ d₃ : Driver} {H K : List Happening}

/-- The happenings account for the results and the record of the server. -/
structure Ledger (s : ServerId) (d : Driver) (H : List Happening) (d' : Driver) : Prop where
  /-- the results in the queue and those put there are taken in order, and the others are left -/
  queue : (d.server s).queued ++ H.flatMap (puts s) =
    H.flatMap (takes s) ++ (d'.server s).queued
  log : (d'.server s).executions = (d.server s).executions ++ H.flatMap (executes s)

theorem Ledger.refl (s : ServerId) (d : Driver) : Ledger s d [] d :=
  ⟨List.append_nil _, (List.append_nil _).symm⟩

theorem Ledger.trans (h : Ledger s d₁ H d₂) (h' : Ledger s d₂ K d₃) : Ledger s d₁ (H ++ K) d₃ where
  queue := by
    rw [List.flatMap_append, List.flatMap_append, ← List.append_assoc, h.queue, List.append_assoc,
      h'.queue, List.append_assoc]
  log := by rw [List.flatMap_append, h'.log, h.log, List.append_assoc]

theorem Ledger.of_quiet (hqueued : (d'.server s).queued = (d.server s).queued)
    (hexecutions : (d'.server s).executions = (d.server s).executions)
    (hH : ∀ x ∈ H, x.server? ≠ some s) : Ledger s d H d' := by
  have hquiet := fun x hx => Happening.quiet_of_server? (hH x hx)
  have hputs : H.flatMap (puts s) = [] := List.flatMap_eq_nil_iff.2 fun x hx => (hquiet x hx).1
  have htakes : H.flatMap (takes s) = [] := List.flatMap_eq_nil_iff.2 fun x hx => (hquiet x hx).2.1
  have hexecutes : H.flatMap (executes s) = [] :=
    List.flatMap_eq_nil_iff.2 fun x hx => (hquiet x hx).2.2
  constructor
  · rw [hputs, htakes, hqueued, List.append_nil, List.nil_append]
  · rw [hexecutes, hexecutions, List.append_nil]

theorem Ledger.of_modify {f : Server → Server} (hservers : d'.servers = d.servers.modify t f)
    (hf : ∀ s, (f s).queued = s.queued ∧ (f s).executions = s.executions)
    (hH : ∀ x ∈ H, x.server? ≠ some s) : Ledger s d H d' := by
  have hserver : d'.server s = (d.servers.modify t f).getD s {} := by
    unfold server
    rw [hservers]
  refine .of_quiet ?_ ?_ hH
  · rw [hserver]
    exact proj_getD_modify (fun s => (hf s).1) d.servers t s {}
  · rw [hserver]
    exact proj_getD_modify (fun s => (hf s).2) d.servers t s {}

end Ledger

theorem ledger_tell (hc : (d.connection c).server < d.servers.length) (x : Server.Setting)
    (s : ServerId) : Ledger s d (d.observe (.tell c x)) (d.step (.tell c x)) := by
  by_cases hs : (d.connection c).server = s
  · subst hs
    have hserver : (d.step (.tell c x)).server (d.connection c).server =
        x.apply (d.server (d.connection c).server) := server_modifyServer hc _
    constructor
    · rw [hserver, x.queued_apply]
      simp [observe, puts, takes, List.flatMap_map]
    · rw [hserver, x.executions_apply]
      simp [observe, executes, List.flatMap_map]
  · have hserver : (d.step (.tell c x)).server s = d.server s := server_modifyServer_of_ne hs d _
    refine .of_quiet (by rw [hserver]) (by rw [hserver]) ?_
    intro y hy
    obtain ⟨rows, -, rfl⟩ := List.mem_map.1 hy
    simpa [Happening.server?] using hs

theorem server_execute (hd : d.Sound) (hh : h < d.handles.length)
    (hf : (d.server (d.host h)).failure = none) :
    (d.execute h).2.server (d.host h) =
      (d.server (d.host h)).executed ⟨(d.handle h).sql, (d.handle h).bindings⟩ := by
  rw [execute_answered hf]
  exact server_modifyServer (d := d.record _) (hd.host_lt hh) _

theorem server_execute_of_ne (hs : d.host h ≠ s) (hf : (d.server (d.host h)).failure = none) :
    (d.execute h).2.server s = d.server s := by
  rw [execute_answered hf]
  exact server_modifyServer_of_ne hs (d.record _) _

theorem ledger_execute (hd : d.Sound) (hh : h < d.handles.length) (s : ServerId) :
    Ledger s d (d.observe (.call (.execute h))) (d.step (.call (.execute h))) := by
  show Ledger s d _ (d.execute h).2
  cases hf : (d.server (d.host h)).failure with
  | some message =>
    rw [observe_refused hf, execute_refused hf]
    exact .of_quiet rfl rfl (by simp)
  | none =>
    rw [observe_answered hh hf]
    by_cases hs : d.host h = s
    · subst hs
      have hserver := server_execute hd hh hf
      constructor
      · rw [hserver]
        unfold Server.executed Server.nextResult
        cases (d.server (d.host h)).queued with
        | nil => simp [puts, takes]
        | cons rows rest => simp [puts, takes]
      · rw [hserver]
        simp [Server.executed, executes]
    · have hserver := server_execute_of_ne hs hf
      refine .of_quiet (by rw [hserver]) (by rw [hserver]) ?_
      simpa [Happening.server?] using hs

theorem ledger_step (hd : d.Sound) (he : d.Possible e) (s : ServerId) :
    Ledger s d (d.observe e) (d.step e) := by
  cases e with
  | connect hasAttributes =>
    have hserver : (d.connect hasAttributes).server s = d.server s :=
      proj_getD_snoc (k := id) rfl d.servers s
    exact .of_quiet (by rw [← hserver]; rfl) (by rw [← hserver]; rfl) (by simp [observe])
  | share c hasAttributes => exact .of_quiet rfl rfl (by simp [observe])
  | tell c x => exact ledger_tell (hd.connections c he) x s
  | call r =>
    cases r with
    | execute h => exact ledger_execute hd he s
    | prepare c sql =>
      show Ledger s d _ (d.prepare c sql).2
      unfold prepare
      split
      next => exact .refl s d
      next =>
        refine .of_modify rfl ?_ (by simp [observe])
        exact fun _ => ⟨rfl, rfl⟩
    | bind h p =>
      show Ledger s d _ (d.bind h p).2
      unfold observe
      dsimp only
      obtain ⟨error, hbind⟩ | hbind := bind_cases d h p
      · rw [hbind]
        exact .refl s d
      · rw [hbind]
        exact .of_quiet rfl rfl (by simp [Happening.server?])
    | fetch h => exact .of_quiet rfl rfl (by simp [observe, Happening.server?])
    | fetchAll h => exact .of_quiet rfl rfl (by simp [observe, Happening.server?])
    | close h =>
      refine .of_modify rfl ?_ (by simp [observe, Happening.server?])
      exact fun _ => ⟨rfl, rfl⟩

theorem ledger_history (hd : d.Sound) (hes : d.Allows es) (s : ServerId) :
    Ledger s d (d.history es) (d.after es) := by
  induction es generalizing d with
  | nil => exact .refl s d
  | cons e es ih => exact (ledger_step hd hes.1 s).trans (ih (hd.step hes.1) hes.2)

/-! ## What a statement's happenings account for -/

section Account

variable {d₁ d₂ d₃ : Driver} {H K : List Happening}

/-- The happenings account for the bindings of the statement and for the rows before its cursor. -/
structure Account (h : HandleId) (d : Driver) (H : List Happening) (d' : Driver) : Prop where
  bindings : (d'.handle h).bindings = Entries.merge (d.handle h).bindings (H.flatMap (binds h))
  /-- the rows before the cursor and those delivered there are released in order, and the others are
  left -/
  cursor : (d.handle h).cursor ++ H.flatMap (delivers h) =
    H.flatMap (releases h) ++ (d'.handle h).cursor

theorem Account.refl (h : HandleId) (d : Driver) : Account h d [] d := ⟨rfl, List.append_nil _⟩

theorem Account.trans (ha : Account h d₁ H d₂) (ha' : Account h d₂ K d₃) :
    Account h d₁ (H ++ K) d₃ where
  bindings := by
    rw [List.flatMap_append, ha'.bindings, ha.bindings]
    exact (List.foldl_append ..).symm
  cursor := by
    rw [List.flatMap_append, List.flatMap_append, ← List.append_assoc, ha.cursor,
      List.append_assoc, ha'.cursor, List.append_assoc]

theorem Account.of_quiet (hbindings : (d'.handle h).bindings = (d.handle h).bindings)
    (hcursor : (d'.handle h).cursor = (d.handle h).cursor)
    (hH : ∀ x ∈ H, x.handle? ≠ some h) : Account h d H d' := by
  have hquiet := fun x hx => Happening.quiet_of_handle? (hH x hx)
  have hbinds : H.flatMap (binds h) = [] := List.flatMap_eq_nil_iff.2 fun x hx => (hquiet x hx).1
  have hdelivers : H.flatMap (delivers h) = [] :=
    List.flatMap_eq_nil_iff.2 fun x hx => (hquiet x hx).2.1
  have hreleases : H.flatMap (releases h) = [] :=
    List.flatMap_eq_nil_iff.2 fun x hx => (hquiet x hx).2.2
  constructor
  · rw [hbinds, hbindings, Entries.merge_nil]
  · rw [hdelivers, hreleases, hcursor, List.append_nil, List.nil_append]

theorem Account.of_modify {f : Handle → Handle} (hh : h < d.handles.length)
    (hhandles : d'.handles = d.handles.modify h f)
    (hbindings : (f (d.handle h)).bindings =
      Entries.merge (d.handle h).bindings (H.flatMap (binds h)))
    (hcursor : (d.handle h).cursor ++ H.flatMap (delivers h) =
      H.flatMap (releases h) ++ (f (d.handle h)).cursor) : Account h d H d' := by
  have hhandle : d'.handle h = f (d.handle h) := by
    unfold handle
    rw [hhandles]
    exact getD_modify_self hh f _
  exact ⟨by rw [hhandle, hbindings], by rw [hhandle, hcursor]⟩

end Account

/-! ## What an event does to statements -/

theorem handles_step_of_called (he : e.handle? = some g) :
    ∃ f, (d.step e).handles = d.handles.modify g f := by
  have hid : d.handles = d.handles.modify g id := (List.modify_id g d.handles).symm
  cases e with
  | connect hasAttributes => cases he
  | share c hasAttributes => cases he
  | tell c x => cases he
  | call r =>
    cases r with
    | prepare c sql => cases he
    | bind h p =>
      cases he
      show ∃ f, (d.bind g p).2.handles = _
      obtain ⟨error, hbind⟩ | hbind := bind_cases d g p
      · rw [hbind]
        exact ⟨id, hid⟩
      · rw [hbind]
        exact ⟨_, rfl⟩
    | execute h =>
      cases he
      show ∃ f, (d.execute g).2.handles = _
      cases hf : (d.server (d.host g)).failure with
      | some message =>
        rw [execute_refused hf]
        exact ⟨id, hid⟩
      | none =>
        rw [execute_answered hf]
        exact ⟨_, rfl⟩
    | fetch h =>
      cases he
      exact ⟨_, rfl⟩
    | fetchAll h =>
      cases he
      exact ⟨_, rfl⟩
    | close h =>
      cases he
      exact ⟨_, rfl⟩

theorem handles_step_of_uncalled (he : e.handle? = none) :
    (d.step e).handles = d.handles ∨
      ∃ c sql, (d.step e).handles = d.handles ++ [⟨c, sql, [], []⟩] := by
  cases e with
  | connect hasAttributes => exact .inl rfl
  | share c hasAttributes => exact .inl rfl
  | tell c x => exact .inl rfl
  | call r =>
    cases r with
    | prepare c sql =>
      show (d.prepare c sql).2.handles = _ ∨ ∃ c' sql', (d.prepare c sql).2.handles = _
      unfold prepare
      split
      next => exact .inl rfl
      next => exact .inr ⟨c, sql, rfl⟩
    | _ => cases he

theorem handle_step_of_other (he : e.handle? = some g) (hgh : g ≠ h) :
    (d.step e).handle h = d.handle h := by
  obtain ⟨f, hf⟩ := handles_step_of_called (d := d) he
  unfold handle
  rw [hf, getD_modify_of_ne hgh]

theorem handle_step_of_ne (hh : h < d.handles.length) (he : e.handle? ≠ some h) :
    (d.step e).handle h = d.handle h := by
  cases hg : e.handle? with
  | some g => exact handle_step_of_other hg fun hgh => he (hg.trans (congrArg some hgh))
  | none =>
    unfold handle
    obtain hsame | ⟨c, sql, hnew⟩ := handles_step_of_uncalled (d := d) hg
    · rw [hsame]
    · rw [hnew, List.getD_append _ _ _ _ hh]

/-- A statement that is not called keeps what it has in common with a new one, also if it is the new
one. -/
theorem proj_handle_step {β : Type} {k : Handle → β}
    (hk : ∀ c sql, k ⟨c, sql, [], []⟩ = k ⟨0, "", [], []⟩) (he : e.handle? ≠ some h) :
    k ((d.step e).handle h) = k (d.handle h) := by
  cases hg : e.handle? with
  | some g => rw [handle_step_of_other hg fun hgh => he (hg.trans (congrArg some hgh))]
  | none =>
    unfold handle
    obtain hsame | ⟨c, sql, hnew⟩ := handles_step_of_uncalled (d := d) hg
    · rw [hsame]
    · rw [hnew]
      exact proj_getD_snoc (hk c sql) d.handles h

theorem handle?_of_mem_observe {x : Happening} (hx : x ∈ d.observe e) (hh : x.handle? = some h) :
    e.handle? = some h := by
  cases e with
  | connect hasAttributes => cases hx
  | share c hasAttributes => cases hx
  | tell c y =>
    obtain ⟨rows, -, rfl⟩ := List.mem_map.1 hx
    cases hh
  | call r =>
    cases r with
    | prepare c sql => cases hx
    | bind g p =>
      unfold observe at hx
      dsimp only at hx
      split at hx
      next =>
        rw [List.mem_singleton.1 hx] at hh
        exact hh
      next => cases hx
    | execute g =>
      unfold observe at hx
      dsimp only at hx
      split at hx
      next =>
        rcases hx with _ | ⟨_, hx⟩
        · exact hh
        · rw [List.mem_singleton.1 hx] at hh
          exact hh
      next => cases hx
    | fetch g =>
      rw [List.mem_singleton.1 hx] at hh
      exact hh
    | fetchAll g =>
      rw [List.mem_singleton.1 hx] at hh
      exact hh
    | close g =>
      rw [List.mem_singleton.1 hx] at hh
      exact hh

theorem account_step_of_ne (he : e.handle? ≠ some h) :
    Account h d (d.observe e) (d.step e) := by
  refine .of_quiet ?_ ?_ fun x hx hh => he (handle?_of_mem_observe hx hh)
  · exact proj_handle_step (k := Handle.bindings) (fun _ _ => rfl) he
  · exact proj_handle_step (k := Handle.cursor) (fun _ _ => rfl) he

theorem account_bind (hh : h < d.handles.length) (p : BoundParam) :
    Account h d (d.observe (.call (.bind h p))) (d.step (.call (.bind h p))) := by
  show Account h d _ (d.bind h p).2
  unfold observe
  dsimp only
  obtain ⟨error, hbind⟩ | hbind := bind_cases d h p
  · rw [hbind]
    exact .refl h d
  · rw [hbind]
    exact .of_modify hh rfl (by simp [binds]) (by simp [delivers, releases])

theorem account_execute (hh : h < d.handles.length) :
    Account h d (d.observe (.call (.execute h))) (d.step (.call (.execute h))) := by
  show Account h d _ (d.execute h).2
  cases hf : (d.server (d.host h)).failure with
  | some message =>
    rw [observe_refused hf, execute_refused hf]
    exact .of_quiet rfl rfl (by simp)
  | none =>
    rw [observe_answered hh hf, execute_answered hf]
    exact .of_modify hh rfl (by simp [binds]) (by simp [delivers, releases])

theorem account_fetch (hh : h < d.handles.length) :
    Account h d (d.observe (.call (.fetch h))) (d.step (.call (.fetch h))) := by
  refine .of_modify hh rfl (by simp [observe, binds]) ?_
  cases hcursor : (d.handle h).cursor with
  | nil => simp [observe, fetch, delivers, releases, hcursor]
  | cons row rest => simp [observe, fetch, delivers, releases, hcursor]

theorem account_fetchAll (hh : h < d.handles.length) :
    Account h d (d.observe (.call (.fetchAll h))) (d.step (.call (.fetchAll h))) :=
  .of_modify hh rfl (by simp [observe, binds]) (by simp [observe, fetchAll, delivers, releases])

theorem account_close (hh : h < d.handles.length) :
    Account h d (d.observe (.call (.close h))) (d.step (.call (.close h))) :=
  .of_modify hh rfl (by simp [observe, binds]) (by simp [observe, delivers, releases])

theorem account_step (he : d.Possible e) (h : HandleId) :
    Account h d (d.observe e) (d.step e) := by
  by_cases hown : e.handle? = some h
  · cases e with
    | connect hasAttributes => cases hown
    | share c hasAttributes => cases hown
    | tell c x => cases hown
    | call r =>
      cases r with
      | prepare c sql => cases hown
      | bind g p =>
        cases hown
        exact account_bind he p
      | execute g =>
        cases hown
        exact account_execute he
      | fetch g =>
        cases hown
        exact account_fetch he
      | fetchAll g =>
        cases hown
        exact account_fetchAll he
      | close g =>
        cases hown
        exact account_close he
  · exact account_step_of_ne hown

theorem account_history (hes : d.Allows es) (h : HandleId) :
    Account h d (d.history es) (d.after es) := by
  induction es generalizing d with
  | nil => exact .refl h d
  | cons e es ih => exact (account_step hes.1 h).trans (ih hes.2)

/-! ## Statements that others share a server with -/

theorem length_le_step (d : Driver) (e : Event) : d.handles.length ≤ (d.step e).handles.length := by
  cases hg : e.handle? with
  | none =>
    obtain hsame | ⟨c, sql, hnew⟩ := handles_step_of_uncalled (d := d) hg
    · exact Nat.le_of_eq (congrArg List.length hsame).symm
    · rw [hnew, List.length_append]
      exact Nat.le_add_right _ _
  | some g =>
    obtain ⟨f, hf⟩ := handles_step_of_called (d := d) hg
    have hlength : (d.step e).handles.length = d.handles.length := by rw [hf, List.length_modify]
    exact Nat.le_of_eq hlength.symm

/-- Whatever is done with others, a statement stays as it is. -/
theorem handle_after_of_ne (hh : h < d.handles.length) (hes : ∀ e ∈ es, e.handle? ≠ some h) :
    (d.after es).handle h = d.handle h := by
  induction es generalizing d with
  | nil => rfl
  | cons e es ih =>
    have hrest : ((d.step e).after es).handle h = (d.step e).handle h :=
      ih (Nat.lt_of_lt_of_le hh (d.length_le_step e)) fun x hx => hes x (.tail _ hx)
    exact hrest.trans (handle_step_of_ne hh (hes e (.head _)))

/-- Whatever order statements are prepared, bound, executed, fetched from and closed in, on however
many connections, and whatever the servers are told in between. The results queued at a server are
taken in the order in which they were put there, each by one execution, and the record grows by one
entry for each execution that is answered. The bindings of a statement are the parameters bound to
it, and the rows that leave its cursor are those given to its own executions, in order. Calls to
other statements leave it as it is. An execution is refused if the server was told to refuse, and
nothing changes then but the record of calls. Otherwise the statement is given the oldest result in
the queue, or the one for executions without, and is recorded with its bindings. -/
theorem history_accounts (hd : d.Sound) (hes : d.Allows es) :
    (∀ s, Ledger s d (d.history es) (d.after es)) ∧
      (∀ h, Account h d (d.history es) (d.after es)) ∧
      (∀ h < d.handles.length, (∀ e ∈ es, e.handle? ≠ some h) →
        (d.after es).handle h = d.handle h) ∧
      ∀ h < (d.after es).handles.length,
        let d' := d.after es
        let s := d'.server (d'.host h)
        (∀ message, s.failure = some message →
            d'.execute h = (.error (.driver (.failed message)), d'.record (.execute h))) ∧
          (s.failure = none → (d'.execute h).1 = .ok s.affected ∧
            d'.observe (.call (.execute h)) =
              [.released h (d'.handle h).cursor,
                .delivered (d'.host h) h ⟨(d'.handle h).sql, (d'.handle h).bindings⟩
                  (!s.queued.isEmpty) (s.queued.head?.getD s.result)]) := by
  refine ⟨fun s => ledger_history hd hes s, fun h => account_history hes h, ?_, ?_⟩
  · exact fun h hh hother => handle_after_of_ne hh hother
  · intro h hh d' s
    refine ⟨fun message hf => execute_refused hf, fun hf => ⟨?_, observe_answered hh hf⟩⟩
    rw [execute_answered hf]

/-- Two statements on two connections to one server. -/
theorem history_accounts_clones :
    let row (n : Int64) : Row := ⟨["n"], [.int n]⟩
    let d : Driver := {}
    let es : List Event :=
      [.connect true, .share 0 true, .call (.prepare 0 "SELECT 1"), .call (.prepare 1 "SELECT 2"),
        .tell 1 (.setResult [row 0]), .tell 0 (.enqueue [row 1, row 2]), .tell 1 (.enqueue [row 3]),
        .call (.bind 0 (.of (.named ":n") (.int 7))), .call (.execute 1), .call (.execute 0),
        .call (.fetch 1), .call (.close 0), .call (.execute 0), .tell 0 (.enqueue [row 4]),
        .tell 0 (.failWith "gone away"), .call (.execute 1), .call (.fetchAll 1)]
    d.Sound ∧ d.Allows es ∧
      (d.history es).flatMap (takes 0) = [[row 1, row 2], [row 3]] ∧
      (d.history es).flatMap (executes 0) =
        [⟨"SELECT 2", []⟩, ⟨"SELECT 1", [.of (.named ":n") (.int 7)]⟩,
          ⟨"SELECT 1", [.of (.named ":n") (.int 7)]⟩] ∧
      ((d.after es).server 0).queued = [[row 4]] ∧
      (d.history es).flatMap (releases 1) = [row 1, row 2] ∧
      ((d.after es).handle 0).cursor = [row 0] ∧
      Ledger 0 d (d.history es) (d.after es) ∧ Account 1 d (d.history es) (d.after es) ∧
      (d.after es).execute 0 =
        (.error (.driver (.failed "gone away")), (d.after es).record (.execute 0)) := by
  intro row d es
  have hd : d.Sound := ⟨by decide, by decide⟩
  have hes : d.Allows es := by decide +kernel
  obtain ⟨hledger, haccount, -, hexecute⟩ := history_accounts hd hes
  refine ⟨hd, hes, by decide +kernel, by decide +kernel, by decide +kernel, by decide +kernel,
    by decide +kernel, hledger 0, haccount 1, ?_⟩
  exact (hexecute 0 (by decide +kernel)).1 "gone away" (by decide +kernel)

end SqlStatement.Driver
