import SqlStatement.Proofs.Driver.Script

/-!
# Holding one prepared statement at a time

A prepared statement is held from its preparation until it is given up, and it is given up only when
its cursor is closed. What is done with it while it is held is said once, call by call, and the
properties of a history of calls follow from that.

* `Rested` : no binding and no execution between an execution and the closing of the cursor;
* `Phase`, `Holding`, `Move`, `Path` : how the held statement stands, and what calls do to it;
* `History.path` : what holds of a history that such calls have made.
-/

namespace SqlStatement

/-! ## Calls to one statement -/

namespace Exchange

/-- The statement that the call prepares or reaches; none if preparing fails. -/
def handle? : Exchange → Option HandleId
  | ⟨.prepare _ _, .ok h⟩ => some h
  | ⟨.prepare _ _, .error _⟩ => none
  | ⟨.bind h _, _⟩ => some h
  | ⟨.execute h, _⟩ => some h
  | ⟨.fetch h, _⟩ => some h
  | ⟨.fetchAll h, _⟩ => some h
  | ⟨.close h, _⟩ => some h

/-- Whether the call must find the cursor closed. -/
def needsRest : Exchange → Bool
  | ⟨.bind _ _, _⟩ => true
  | ⟨.execute _, _⟩ => true
  | _ => false

def closing (h : HandleId) : Exchange := ⟨.close h, ()⟩

end Exchange

open Exchange

variable {J K : List Exchange} {x : Exchange} {h g : HandleId} {current : Option ConnectionId}

/-- The calls that reached the statement, with the one that prepared it. -/
def callsTo (h : HandleId) (J : List Exchange) : List Exchange :=
  J.filter fun x => x.handle? = some h

theorem callsTo_append (h : HandleId) (J K : List Exchange) :
    callsTo h (J ++ K) = callsTo h J ++ callsTo h K :=
  List.filter_append ..

theorem callsTo_snoc_self (hx : x.handle? = some h) (J : List Exchange) :
    callsTo h (J ++ [x]) = callsTo h J ++ [x] := by
  rw [callsTo_append]
  simp [callsTo, hx]

theorem callsTo_snoc_of_ne (hx : x.handle? ≠ some h) (J : List Exchange) :
    callsTo h (J ++ [x]) = callsTo h J := by
  rw [callsTo_append]
  simp [callsTo, hx]

/-- After an execution neither a binding nor another execution reaches the statement before its
cursor is closed. -/
def Rested (h : HandleId) (J : List Exchange) : Prop :=
  ∀ before r between x after, callsTo h J = before ++ ⟨.execute h, r⟩ :: between ++ x :: after →
    x.needsRest → closing h ∈ between

/-- The cursor has been closed since the last execution. -/
def Idle (h : HandleId) (J : List Exchange) : Prop :=
  ∀ before r after, callsTo h J = before ++ ⟨.execute h, r⟩ :: after → closing h ∈ after

/-- The last of the calls to the statement closed its cursor. -/
def LastClosed (h : HandleId) (J : List Exchange) : Prop :=
  (callsTo h J).getLast? = some (closing h)

theorem eq_or_of_snoc_eq {α : Type} {l before after : List α} {a b : α}
    (h : l ++ [b] = before ++ a :: after) :
    (before = l ∧ a = b ∧ after = []) ∨ ∃ rest, after = rest ++ [b] ∧ l = before ++ a :: rest := by
  rcases List.eq_nil_or_concat after with rfl | ⟨rest, c, rfl⟩
  · have hlast := List.append_inj' h rfl
    exact Or.inl ⟨hlast.1.symm, (List.cons.inj hlast.2).1.symm, rfl⟩
  · have hassoc : before ++ a :: (rest.concat c) = (before ++ a :: rest) ++ [c] := by simp
    rw [hassoc] at h
    obtain ⟨hl, hc⟩ := List.append_inj' h rfl
    have hbc : b = c := (List.cons.inj hc).1
    exact Or.inr ⟨rest, by simp [hbc], hl⟩

/-! ## Holding a statement -/

/-- How a statement stands that is held. -/
inductive Phase where
  /-- no execution since it was prepared or its cursor was closed -/
  | ready
  | executed
  /-- its cursor was closed by the last call -/
  | closed

structure Held where
  handle : HandleId
  connection : ConnectionId
  phase : Phase

/-- The statement that is held, if there is one. Statements from the number `fresh` on have not been
prepared yet. -/
structure Holding where
  fresh : HandleId
  held : Option Held

/-- What a call does to the statement that is held. -/
inductive Phase.Next (h : HandleId) : Phase → Exchange → Phase → Prop
  | bind {phase : Phase} (hphase : phase ≠ .executed) (p : BoundParam) (r : Except Error Unit) :
    Next h phase ⟨.bind h p, r⟩ .ready
  | execute {phase : Phase} (hphase : phase ≠ .executed) (r : Except Error Nat) :
    Next h phase ⟨.execute h, r⟩ .executed
  | fetch (r : Option Row) : Next h .executed ⟨.fetch h, r⟩ .executed
  | fetchAll (r : List Row) : Next h .executed ⟨.fetchAll h, r⟩ .executed
  | close (phase : Phase) : Next h phase (closing h) .closed

/-- The calls that can be made. One prepares only while nothing is held, and executes only what was
prepared on the current connection. -/
inductive Move (current : Option ConnectionId) : Holding → Exchange → Holding → Prop
  | refused (n : HandleId) (c : ConnectionId) (sql : String) (e : Error) :
    Move current ⟨n, none⟩ ⟨.prepare c sql, .error e⟩ ⟨n, none⟩
  | prepared {n h : HandleId} (hn : n ≤ h) (c : ConnectionId) (sql : String) :
    Move current ⟨n, none⟩ ⟨.prepare c sql, .ok h⟩ ⟨h + 1, some ⟨h, c, .ready⟩⟩
  | called {n h : HandleId} {c : ConnectionId} {phase phase' : Phase} {x : Exchange}
    (hnext : Phase.Next h phase x phase') (hcurrent : phase' = .executed → current = some c) :
    Move current ⟨n, some ⟨h, c, phase⟩⟩ x ⟨n, some ⟨h, c, phase'⟩⟩

/-- Calls one after the other. A statement whose cursor is closed may be given up at any time. -/
inductive Path (current : Option ConnectionId) : Holding → List Exchange → Holding → Prop
  | stay (s : Holding) : Path current s [] s
  | move {s s₁ s₂ : Holding} {J : List Exchange} {x : Exchange} (hpath : Path current s J s₁)
    (hmove : Move current s₁ x s₂) : Path current s (J ++ [x]) s₂
  | release {s : Holding} {J : List Exchange} {n h : HandleId} {c : ConnectionId}
    (hpath : Path current s J ⟨n, some ⟨h, c, .closed⟩⟩) : Path current s J ⟨n, none⟩

theorem Path.trans {s₁ s₂ s₃ : Holding} (h₁ : Path current s₁ J s₂) (h₂ : Path current s₂ K s₃) :
    Path current s₁ (J ++ K) s₃ := by
  induction h₂ with
  | stay => simpa using h₁
  | move _ hmove ih =>
    rw [← List.append_assoc]
    exact ih.move hmove
  | release _ ih => exact ih.release

theorem Path.single {s₁ s₂ : Holding} (h : Move current s₁ x s₂) : Path current s₁ [x] s₂ :=
  (Path.stay s₁).move h

namespace Phase.Next

variable {phase phase' : Phase}

theorem handle? (hnext : Next h phase x phase') : x.handle? = some h := by
  cases hnext <;> rfl

theorem ne_prepare (hnext : Next h phase x phase') (c : ConnectionId) (sql : String)
    (r : Except Error HandleId) : x ≠ ⟨.prepare c sql, r⟩ := by
  intro hx
  subst hx
  cases hnext

theorem ready_of_needsRest (hnext : Next h phase x phase') (hx : x.needsRest) :
    phase ≠ .executed := by
  cases hnext with
  | bind hphase _ _ => exact hphase
  | execute hphase _ => exact hphase
  | fetch => cases hx
  | fetchAll => cases hx
  | close => cases hx

theorem executed_of_execute {r : Except Error Nat} (hnext : Next h phase x phase')
    (hx : x = ⟨.execute g, r⟩) : phase' = .executed := by
  subst hx
  cases hnext
  rfl

theorem closing_of_executed (hnext : Next h phase x phase') (hphase : phase = .executed)
    (hphase' : phase' ≠ .executed) : x = closing h := by
  cases hnext with
  | bind hne _ _ => exact absurd hphase hne
  | execute => exact absurd rfl hphase'
  | fetch => exact absurd rfl hphase'
  | fetchAll => exact absurd rfl hphase'
  | close => rfl

theorem closing_of_closed (hnext : Next h phase x phase') (hphase' : phase' = .closed) :
    x = closing h := by
  cases hnext with
  | bind => cases hphase'
  | execute => cases hphase'
  | fetch => cases hphase'
  | fetchAll => cases hphase'
  | close => rfl

end Phase.Next

/-! ## What a history of calls shows -/

/-- What holds of the calls so far while a statement is held or none is. -/
structure History (J : List Exchange) (s : Holding) : Prop where
  old : ∀ h, callsTo h J ≠ [] → h < s.fresh
  rested : ∀ h, Rested h J
  idle : ∀ h, (∀ c, s.held ≠ some ⟨h, c, .executed⟩) → Idle h J
  closed : ∀ h, callsTo h J ≠ [] → (∀ c phase, s.held = some ⟨h, c, phase⟩ → phase = .closed) →
    LastClosed h J
  prepared : ∀ g, s.held = some g → ∃ sql, ⟨.prepare g.connection sql, .ok g.handle⟩ ∈ J
  /-- when a statement is prepared, those before it are closed and done with -/
  apart : ∀ before c sql r after, J = before ++ ⟨.prepare c sql, r⟩ :: after →
    ∀ h, callsTo h before ≠ [] → LastClosed h before ∧
      callsTo h (⟨.prepare c sql, r⟩ :: after) = [] ∧ ∀ c phase, s.held ≠ some ⟨h, c, phase⟩

theorem history_nil (n : HandleId) : History [] ⟨n, none⟩ where
  old h hne := absurd rfl hne
  rested h before r between x after heq := by simp [callsTo] at heq
  idle h _ before r after heq := by simp [callsTo] at heq
  closed h hne := absurd rfl hne
  prepared g hg := nomatch hg
  apart before c sql r after heq := by simp at heq

namespace History

theorem called_of_prefix {s : Holding} (hist : History (J ++ K) s) (hne : callsTo h J ≠ []) :
    h < s.fresh := by
  refine hist.old h ?_
  rw [callsTo_append]
  simp [hne]

theorem refused {n : HandleId} (hist : History J ⟨n, none⟩) (c : ConnectionId) (sql : String)
    (e : Error) : History (J ++ [⟨.prepare c sql, .error e⟩]) ⟨n, none⟩ := by
  have hcalls : ∀ h K, callsTo h (K ++ [⟨.prepare c sql, .error e⟩]) = callsTo h K :=
    fun h K => callsTo_snoc_of_ne (by simp [handle?]) K
  refine ⟨?_, ?_, ?_, ?_, ?_, ?_⟩
  · intro h hne
    exact hist.old h (by rwa [hcalls] at hne)
  · intro h before r between x after heq
    exact hist.rested h before r between x after (by rw [← heq, hcalls])
  · intro h hheld before r after heq
    exact hist.idle h hheld before r after (by rw [← heq, hcalls])
  · intro h hne hheld
    rw [hcalls] at hne
    unfold LastClosed
    rw [hcalls]
    exact hist.closed h hne hheld
  · intro g hg
    cases hg
  · intro before c' sql' r after heq h hne
    rcases eq_or_of_snoc_eq heq with ⟨rfl, hx, rfl⟩ | ⟨rest, rfl, hJ⟩
    · refine ⟨hist.closed h hne (by simp), ?_, by simp⟩
      rw [hx]
      exact hcalls h []
    · obtain ⟨hlast, hafter, hheld⟩ := hist.apart before c' sql' r rest hJ h hne
      refine ⟨hlast, ?_, hheld⟩
      rw [← List.cons_append, hcalls, hafter]

theorem preparedNew {n : HandleId} (hist : History J ⟨n, none⟩) (hn : n ≤ h) (c : ConnectionId)
    (sql : String) :
    History (J ++ [⟨.prepare c sql, .ok h⟩]) ⟨h + 1, some ⟨h, c, .ready⟩⟩ := by
  have hold : ∀ g, callsTo g J ≠ [] → g < h := fun g hne => Nat.lt_of_lt_of_le (hist.old g hne) hn
  have hnew : callsTo h J = [] := by
    by_contra hne
    exact Nat.lt_irrefl h (hold h hne)
  have hself : callsTo h (J ++ [⟨.prepare c sql, .ok h⟩]) = [⟨.prepare c sql, .ok h⟩] := by
    rw [callsTo_snoc_self rfl, hnew, List.nil_append]
  have hother : ∀ g, g ≠ h → ∀ K, callsTo g (K ++ [⟨.prepare c sql, .ok h⟩]) = callsTo g K := by
    intro g hg K
    exact callsTo_snoc_of_ne (by simp [handle?, hg.symm]) K
  refine ⟨?_, ?_, ?_, ?_, ?_, ?_⟩
  · intro g hne
    by_cases hg : g = h
    · subst hg
      exact Nat.lt_succ_self g
    · rw [hother g hg] at hne
      exact Nat.lt_succ_of_lt (hold g hne)
  · intro g before r between x after heq hx
    by_cases hg : g = h
    · subst hg
      rw [hself] at heq
      have hlen := congrArg List.length heq
      simp at hlen
      omega
    · rw [hother g hg] at heq
      exact hist.rested g before r between x after heq hx
  · intro g hheld before r after heq
    by_cases hg : g = h
    · subst hg
      rw [hself] at heq
      have hmem : (⟨.execute g, r⟩ : Exchange) ∈ [⟨.prepare c sql, .ok g⟩] := by
        rw [heq]
        simp
      simp at hmem
    · rw [hother g hg] at heq
      exact hist.idle g (by simp) before r after heq
  · intro g hne hheld
    by_cases hg : g = h
    · subst hg
      exact absurd (hheld c .ready rfl) (by simp)
    · rw [hother g hg] at hne
      unfold LastClosed
      rw [hother g hg]
      exact hist.closed g hne (by simp)
  · intro g hg
    cases hg
    exact ⟨sql, by simp⟩
  · intro before c' sql' r after heq g hne
    have hlt : g < h := by
      rcases eq_or_of_snoc_eq heq with ⟨rfl, -, -⟩ | ⟨rest, -, rfl⟩
      · exact hold g hne
      · exact Nat.lt_of_lt_of_le (hist.called_of_prefix hne) hn
    have hg : g ≠ h := Nat.ne_of_lt hlt
    have hheld : ∀ c' phase, some (Held.mk h c .ready) ≠ some ⟨g, c', phase⟩ := by
      intro c' phase hheld
      cases hheld
      exact hg rfl
    rcases eq_or_of_snoc_eq heq with ⟨rfl, hx, rfl⟩ | ⟨rest, rfl, hJ⟩
    · refine ⟨hist.closed g hne (by simp), ?_, hheld⟩
      rw [hx]
      exact hother g hg []
    · obtain ⟨hlast, hafter, -⟩ := hist.apart before c' sql' r rest hJ g hne
      refine ⟨hlast, ?_, hheld⟩
      rw [← List.cons_append, hother g hg, hafter]

theorem called {n : HandleId} {c : ConnectionId} {phase phase' : Phase}
    (hist : History J ⟨n, some ⟨h, c, phase⟩⟩) (hnext : Phase.Next h phase x phase') :
    History (J ++ [x]) ⟨n, some ⟨h, c, phase'⟩⟩ := by
  have hhandle := hnext.handle?
  have hself := callsTo_snoc_self hhandle J
  have hother : ∀ g, g ≠ h → ∀ K, callsTo g (K ++ [x]) = callsTo g K := by
    intro g hg K
    exact callsTo_snoc_of_ne (by simp [hhandle, hg.symm]) K
  have hheld : ∀ g, g ≠ h → ∀ c' p p', some (Held.mk h c p) ≠ some ⟨g, c', p'⟩ := by
    intro g hg c' p p' heq
    cases heq
    exact hg rfl
  refine ⟨?_, ?_, ?_, ?_, ?_, ?_⟩
  · intro g hne
    by_cases hg : g = h
    · subst hg
      obtain ⟨sql, hmem⟩ := hist.prepared _ rfl
      refine hist.old g (List.ne_nil_of_mem (List.mem_filter.2 ⟨hmem, ?_⟩))
      simp [handle?]
    · rw [hother g hg] at hne
      exact hist.old g hne
  · intro g before r between y after heq hy
    by_cases hg : g = h
    · subst hg
      rw [hself] at heq
      rcases eq_or_of_snoc_eq heq with ⟨hbefore, rfl, -⟩ | ⟨rest, -, hJ⟩
      · refine hist.idle g ?_ before r between hbefore.symm
        intro c' hexecuted
        cases hexecuted
        exact hnext.ready_of_needsRest hy rfl
      · exact hist.rested g before r between y rest hJ hy
    · rw [hother g hg] at heq
      exact hist.rested g before r between y after heq hy
  · intro g hidle before r after heq
    by_cases hg : g = h
    · subst hg
      have hphase' : phase' ≠ .executed := fun hphase => hidle c (by rw [hphase])
      rw [hself] at heq
      rcases eq_or_of_snoc_eq heq with ⟨-, hx, -⟩ | ⟨rest, rfl, hJ⟩
      · exact absurd (hnext.executed_of_execute hx.symm) hphase'
      · by_cases hphase : phase = .executed
        · simp [hnext.closing_of_executed hphase hphase']
        · have hmem := hist.idle g (by simp [hphase]) before r rest hJ
          simp [hmem]
    · rw [hother g hg] at heq
      exact hist.idle g (fun c' => hheld g hg c' _ _) before r after heq
  · intro g hne hclosed
    unfold LastClosed
    by_cases hg : g = h
    · subst hg
      rw [hself, hnext.closing_of_closed (hclosed c phase' rfl)]
      simp
    · rw [hother g hg] at hne ⊢
      exact hist.closed g hne fun c' p heq => absurd heq (hheld g hg c' _ p)
  · intro g hg
    cases hg
    obtain ⟨sql, hmem⟩ := hist.prepared _ rfl
    exact ⟨sql, List.mem_append_left _ hmem⟩
  · intro before c' sql r after heq g hne
    rcases eq_or_of_snoc_eq heq with ⟨-, hx, -⟩ | ⟨rest, rfl, hJ⟩
    · exact absurd hx.symm (hnext.ne_prepare c' sql r)
    · obtain ⟨hlast, hafter, hnot⟩ := hist.apart before c' sql r rest hJ g hne
      have hg : g ≠ h := by
        intro hg
        exact hnot c phase (by rw [hg])
      refine ⟨hlast, ?_, fun c' p => hheld g hg c' phase' p⟩
      rw [← List.cons_append, hother g hg, hafter]

theorem released {n : HandleId} {c : ConnectionId} (hist : History J ⟨n, some ⟨h, c, .closed⟩⟩) :
    History J ⟨n, none⟩ where
  old := hist.old
  rested := hist.rested
  idle g _ := hist.idle g (by simp)
  closed g hne _ := hist.closed g hne (by simp)
  prepared g hg := nomatch hg
  apart before c sql r after heq g hne := by
    obtain ⟨hlast, hafter, -⟩ := hist.apart before c sql r after heq g hne
    exact ⟨hlast, hafter, by simp⟩

theorem move {s s' : Holding} (hist : History J s) (hmove : Move current s x s') :
    History (J ++ [x]) s' := by
  cases hmove with
  | refused n c sql e => exact hist.refused c sql e
  | prepared hn c sql => exact hist.preparedNew hn c sql
  | called hnext _ => exact hist.called hnext

theorem path {s s' : Holding} (hist : History J s) (hpath : Path current s K s') :
    History (J ++ K) s' := by
  induction hpath with
  | stay => simpa using hist
  | move _ hmove ih =>
    rw [← List.append_assoc]
    exact ih.move hmove
  | release _ ih => exact ih.released

end History

/-! ## Statements that are held no longer -/

/-- The statement was prepared and has been given up. -/
structure Holding.Forsaken (h : HandleId) (s : Holding) : Prop where
  old : h < s.fresh
  apart : ∀ c phase, s.held ≠ some ⟨h, c, phase⟩

theorem Holding.Forsaken.move {s s' : Holding} (hs : s.Forsaken h) (hmove : Move current s x s') :
    x.handle? ≠ some h ∧ s'.Forsaken h := by
  cases hmove with
  | refused n c sql e => exact ⟨by simp [handle?], hs⟩
  | prepared hn c sql =>
    have hlt := Nat.lt_of_lt_of_le hs.old hn
    refine ⟨?_, Nat.lt_succ_of_lt hlt, ?_⟩
    · intro heq
      cases heq
      exact Nat.lt_irrefl h hlt
    · intro c phase heq
      cases heq
      exact Nat.lt_irrefl h hlt
  | called hnext _ =>
    have hne := hs.apart
    refine ⟨?_, hs.old, ?_⟩
    · intro heq
      rw [hnext.handle?] at heq
      cases heq
      exact hne _ _ rfl
    · intro c phase heq
      cases heq
      exact hne _ _ rfl

theorem Path.forsaken {s s' : Holding} (hpath : Path current s J s') (hs : s.Forsaken h) :
    callsTo h J = [] ∧ s'.Forsaken h := by
  induction hpath with
  | stay => exact ⟨rfl, hs⟩
  | move _ hmove ih =>
    obtain ⟨hnil, hs₁⟩ := ih
    obtain ⟨hx, hs₂⟩ := hs₁.move hmove
    exact ⟨by rw [callsTo_snoc_of_ne hx, hnil], hs₂⟩
  | release _ ih => exact ⟨ih.1, ih.2.old, by simp⟩

/-! ## Executions -/

/-- What is executed was prepared on the current connection. -/
theorem Path.executed {s s' : Holding} {r : Except Error Nat} (hist : History J s)
    (hpath : Path current s K s') (hmem : ⟨.execute h, r⟩ ∈ K) :
    ∃ c sql, current = some c ∧ ⟨.prepare c sql, .ok h⟩ ∈ J ++ K := by
  induction hpath with
  | stay => simp at hmem
  | move hpath hmove ih =>
    rw [← List.append_assoc]
    rcases List.mem_append.1 hmem with hmem | hmem
    · obtain ⟨c, sql, hcurrent, hprepared⟩ := ih hmem
      exact ⟨c, sql, hcurrent, List.mem_append_left _ hprepared⟩
    · have hx := List.mem_singleton.1 hmem
      subst hx
      have hist₁ := hist.path hpath
      cases hmove with
      | called hnext hcurrent =>
        have hphase := hnext.executed_of_execute rfl
        obtain ⟨sql, hprepared⟩ := hist₁.prepared _ rfl
        have hhandle := hnext.handle?
        cases hhandle
        exact ⟨_, sql, hcurrent hphase, List.mem_append_left _ hprepared⟩
  | release _ ih => exact ih hmem

end SqlStatement
