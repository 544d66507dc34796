import LineStore.Lock.Crowd

/-!
A value behind a lock.

Who holds write access reads the value in one step and stores its update of what it read in a later one.
Who holds read access may look at the value any number of times. Any steps of other threads may come in
between, so that an update would be lost if the lock let two writers in.
-/

namespace LineStore.Lock

/-- How far a writer is. -/
inductive Draft (α : Type) where
  | unread
  | read (value : α)
  | stored

/-- What a thread is about at a guarded value. -/
inductive Guard (α : Type) where
  | none
  /-- It reads, or waits to: how many writers had been granted the lock when it was, and what it saw. -/
  | reader (since : Nat) (seen : List α)
  /-- It writes, or waits to. -/
  | writer (update : α → α) (draft : Draft α)

/-- A value, its lock and the threads that share it. -/
structure Guarded (α : Type) where
  crowd : Crowd
  value : α
  guards : List (Guard α)
  /-- The updates of the writers that have been granted the lock, in the order of the grants. No step
  looks at this list. -/
  grants : List (α → α) := []

/-- A step of a thread. -/
inductive Guarded.Move (α : Type) where
  | read (thread : Nat)
  | write (thread : Nat) (update : α → α)
  | resume (thread : Nat)
  /-- It wakes although nobody called it. -/
  | rouse (thread : Nat)
  | look (thread : Nat)
  | load (thread : Nat)
  | store (thread : Nat)
  /-- It gives up the lock. A writer does so once it has stored its update. -/
  | release (thread : Nat)

namespace Guarded

variable {α : Type}

/-- A value with `count` threads around it. -/
def start (capacity count : Nat) (value : α) : Guarded α where
  crowd := .ofSize capacity count
  value
  guards := List.replicate count .none

def guardOf (guarded : Guarded α) (thread : Nat) : Guard α :=
  guarded.guards[thread]?.getD .none

def setGuard (guarded : Guarded α) (thread : Nat) (guard : Guard α) : Guarded α :=
  { guarded with guards := guarded.guards.set thread guard }

/-- Lets an action happen at the lock, and notes whom it granted the lock. -/
def lock (guarded : Guarded α) (action : Action) : Option (Guarded α) :=
  (guarded.crowd.act action).map fun after =>
    let thread := action.thread
    let granted := ¬ (guarded.crowd.stageOf thread).holds ∧ (after.stageOf thread).holds
    let guarded := { guarded with crowd := after }
    if granted then
      match guarded.guardOf thread with
      | .reader _ seen => guarded.setGuard thread (.reader guarded.grants.length seen)
      | .writer update _ => { guarded with grants := guarded.grants ++ [update] }
      | .none => guarded
    else guarded

/-- What a step leads to, or `none` if it is not possible. -/
def act (guarded : Guarded α) : Move α → Option (Guarded α)
  | .read thread => (guarded.setGuard thread (.reader 0 [])).lock (.acquire thread .read)
  | .write thread update =>
    (guarded.setGuard thread (.writer update .unread)).lock (.acquire thread .write)
  | .resume thread => guarded.lock (.resume thread)
  | .rouse thread => guarded.lock (.rouse thread)
  | .look thread =>
    match guarded.crowd.stageOf thread, guarded.guardOf thread with
    | .reading, .reader since seen =>
      some (guarded.setGuard thread (.reader since (seen ++ [guarded.value])))
    | _, _ => none
  | .load thread =>
    match guarded.crowd.stageOf thread, guarded.guardOf thread with
    | .writing _, .writer update .unread =>
      some (guarded.setGuard thread (.writer update (.read guarded.value)))
    | _, _ => none
  | .store thread =>
    match guarded.crowd.stageOf thread, guarded.guardOf thread with
    | .writing _, .writer update (.read value) =>
      some { guarded.setGuard thread (.writer update .stored) with value := update value }
    | _, _ => none
  | .release thread =>
    match guarded.guardOf thread with
    | .writer _ .unread | .writer _ (.read _) => none
    | _ => (guarded.setGuard thread .none).lock (.release thread)

/-- The states that a value and its threads can come to. -/
inductive Reachable (capacity count : Nat) (value : α) : Guarded α → Prop where
  | start : Reachable capacity count value (start capacity count value)
  | step {before after : Guarded α} {move : Move α} : Reachable capacity count value before →
      before.act move = some after → Reachable capacity count value after

/-- The value after these updates, one after another. -/
def updated (value : α) (updates : List (α → α)) : α :=
  updates.foldl (fun value update => update value) value

end Guarded

end LineStore.Lock
