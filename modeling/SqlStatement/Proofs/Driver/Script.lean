import SqlStatement.Proofs.Driver

/-!
# Scripts of driver calls

The driver's own record leaves out calls that fail and calls that fetch. A script says what is asked
of a driver call by call, and how to go on after each answer. It learns nothing of the driver but
the answers, so no call that matters can be left out of it.

* `Exchange` : a call with its answer;
* `Script.calls_play` : the driver's record of a script.
-/

namespace SqlStatement

inductive Request where
  | prepare (c : ConnectionId) (sql : String)
  | bind (h : HandleId) (p : BoundParam)
  | execute (h : HandleId)
  | fetch (h : HandleId)
  | fetchAll (h : HandleId)
  | close (h : HandleId)

abbrev Request.Reply : Request → Type
  | prepare _ _ => Except Error HandleId
  | bind _ _ => Except Error Unit
  | execute _ => Except Error Nat
  | fetch _ => Option Row
  | fetchAll _ => List Row
  | close _ => Unit

def Driver.answer (d : Driver) : (r : Request) → r.Reply × Driver
  | .prepare c sql => d.prepare c sql
  | .bind h p => d.bind h p
  | .execute h => d.execute h
  | .fetch h => d.fetch h
  | .fetchAll h => d.fetchAll h
  | .close h => ((), d.closeCursor h)

structure Exchange where
  request : Request
  reply : request.Reply

/-! ## Scripts -/

/-- Calls one after the other, each depending on the answers before it. -/
inductive Script (α : Type) where
  | done (a : α)
  | ask (r : Request) (next : r.Reply → Script α)

namespace Script

variable {α β : Type}

def bind : Script α → (α → Script β) → Script β
  | done a, f => f a
  | ask r next, f => ask r fun reply => (next reply).bind f

def play : Script α → Driver → α × Driver
  | done a, d => (a, d)
  | ask r next, d => (next (d.answer r).1).play (d.answer r).2

/-- The calls that are made when a script is played, with their answers. -/
def exchanges : Script α → Driver → List Exchange
  | done _, _ => []
  | ask r next, d => ⟨r, (d.answer r).1⟩ :: (next (d.answer r).1).exchanges (d.answer r).2

theorem play_ask (r : Request) (next : r.Reply → Script α) (d : Driver) :
    (ask r next).play d = (next (d.answer r).1).play (d.answer r).2 := rfl

theorem play_bind (x : Script α) (f : α → Script β) (d : Driver) :
    (x.bind f).play d = (f (x.play d).1).play (x.play d).2 := by
  induction x generalizing d with
  | done a => rfl
  | ask r next ih => exact ih (d.answer r).1 (d.answer r).2

theorem exchanges_bind (x : Script α) (f : α → Script β) (d : Driver) :
    (x.bind f).exchanges d = x.exchanges d ++ (f (x.play d).1).exchanges (x.play d).2 := by
  induction x generalizing d with
  | done a => rfl
  | ask r next ih => exact congrArg (_ :: ·) (ih (d.answer r).1 (d.answer r).2)

end Script

/-! ## What a driver keeps of a call -/

theorem Driver.slots_answer (d : Driver) (r : Request) : (d.answer r).2.slots = d.slots := by
  cases r with
  | prepare c sql => exact (prepare_quiet d c sql).slots
  | bind h p => exact (bind_quiet d h p).slots
  | execute h =>
    show (d.execute h).2.slots = d.slots
    unfold execute
    dsimp only
    split
    next => rfl
    next => rfl
  | fetch h => rfl
  | fetchAll h => rfl
  | close h => rfl

theorem Script.slots_play {α : Type} (x : Script α) (d : Driver) :
    (x.play d).2.slots = d.slots := by
  induction x generalizing d with
  | done a => rfl
  | ask r next ih => exact (ih (d.answer r).1 (d.answer r).2).trans (d.slots_answer r)

/-- What the driver records of a call. -/
def Exchange.recorded : Exchange → List Call
  | ⟨.prepare c sql, .ok h⟩ => [.prepare h c sql]
  | ⟨.bind h p, .ok _⟩ => [.bind h p]
  | ⟨.execute h, _⟩ => [.execute h]
  | ⟨.close h, _⟩ => [.close h]
  | _ => []

theorem Driver.calls_answer (d : Driver) (r : Request) :
    (d.answer r).2.calls = d.calls ++ Exchange.recorded ⟨r, (d.answer r).1⟩ := by
  cases r with
  | prepare c sql =>
    show (d.prepare c sql).2.calls = d.calls ++ Exchange.recorded ⟨.prepare c sql, (d.prepare c sql).1⟩
    unfold prepare
    split
    next => exact (List.append_nil _).symm
    next => rfl
  | bind h p =>
    show (d.bind h p).2.calls = d.calls ++ Exchange.recorded ⟨.bind h p, (d.bind h p).1⟩
    unfold bind
    split
    next => exact (List.append_nil _).symm
    next => rfl
  | execute h =>
    show (d.execute h).2.calls = d.calls ++ [.execute h]
    unfold execute
    dsimp only
    split
    next => rfl
    next => rfl
  | fetch h => exact (List.append_nil _).symm
  | fetchAll h => exact (List.append_nil _).symm
  | close h => rfl

theorem Script.calls_play {α : Type} (x : Script α) (d : Driver) :
    (x.play d).2.calls = d.calls ++ (x.exchanges d).flatMap Exchange.recorded := by
  induction x generalizing d with
  | done a => exact (List.append_nil _).symm
  | ask r next ih =>
    have hrest := ih (d.answer r).1 (d.answer r).2
    rw [d.calls_answer r, List.append_assoc] at hrest
    exact hrest

end SqlStatement
