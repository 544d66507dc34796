import LineStore.Lock.State

/-!
A lock together with the threads that use it.

One action of a crowd is one segment of one thread, or the waking of a parked thread for no reason.
`Crowd.act` says which actions are possible and what they lead to; a run is any sequence of possible
actions. `Crowd.settle` lets every woken thread look again, after which each has been granted the lock
or is parked.
-/

namespace LineStore.Lock

/-- A thread as the lock sees it. -/
structure Member where
  stage : Stage := .away
  /-- It waits and has not been woken since it last looked. -/
  parked : Bool := false
deriving DecidableEq, Repr

namespace Member

/-- A thread right after a segment that left it at `stage`. -/
def ofStage (stage : Stage) : Member :=
  { stage, parked := stage.waits }

/-- A thread after others have been woken, perhaps it too. -/
def hear (wakes : Wakes) (member : Member) : Member :=
  { member with parked := member.parked && !wakes.reaches member.stage }

/-- Whether a thread waits and may look again. -/
def awake (member : Member) : Bool :=
  member.stage.waits && !member.parked

end Member

/-- One thing that happens to a lock and its threads. Threads are numbered. -/
inductive Action where
  | acquire (thread : Nat) (access : Access)
  | release (thread : Nat)
  | resume (thread : Nat)
  /-- A parked thread wakes although nobody called it. -/
  | rouse (thread : Nat)
deriving DecidableEq, Repr

def Action.thread : Action → Nat
  | acquire thread _ | release thread | resume thread | rouse thread => thread

/-- A lock for `capacity` queued writers, and its threads by number. -/
structure Crowd where
  capacity : Nat
  lock : State := {}
  members : List Member := []
deriving DecidableEq, Repr

namespace Crowd

/-- A free lock with `count` threads that have nothing to do with it. -/
def ofSize (capacity count : Nat) : Crowd :=
  { capacity, members := List.replicate count {} }

/-- The crowd after a segment of `thread` that left the lock in this state and the thread at this
stage. -/
def move (crowd : Crowd) (thread : Nat) (outcome : State × Stage) : Crowd :=
  { crowd with lock := outcome.1, members := crowd.members.set thread (.ofStage outcome.2) }

def stageOf (crowd : Crowd) (thread : Nat) : Stage :=
  (crowd.members[thread]?.getD {}).stage

/-- What an action leads to, or `none` if it is not possible. -/
def act (crowd : Crowd) : Action → Option Crowd
  | .acquire thread access =>
    match crowd.members[thread]? with
    | some member =>
      if member.stage = .away then
        some (crowd.move thread (crowd.lock.enter crowd.capacity access))
      else none
    | none => none
  | .release thread =>
    match crowd.members[thread]? with
    | some member =>
      if member.stage.holds then
        let (lock, wakes) := crowd.lock.leave member.stage
        some { crowd with lock, members := (crowd.members.set thread {}).map (·.hear wakes) }
      else none
    | none => none
  | .resume thread =>
    match crowd.members[thread]? with
    | some member =>
      if member.awake then
        some (crowd.move thread (crowd.lock.retry crowd.capacity member.stage))
      else none
    | none => none
  | .rouse thread =>
    match crowd.members[thread]? with
    | some member =>
      if member.parked then
        some { crowd with members := crowd.members.set thread { member with parked := false } }
      else none
    | none => none

def Step (before after : Crowd) : Prop :=
  ∃ action, before.act action = some after

/-- The states that a free lock and its threads can come to. -/
inductive Reachable (capacity count : Nat) : Crowd → Prop where
  | start : Reachable capacity count (ofSize capacity count)
  | step {before after : Crowd} : Reachable capacity count before → Step before after →
      Reachable capacity count after

/-- Whether every thread that waits is parked. -/
def Settled (crowd : Crowd) : Prop :=
  ∀ member ∈ crowd.members, member.awake = false

instance (crowd : Crowd) : Decidable crowd.Settled :=
  inferInstanceAs (Decidable (∀ member ∈ crowd.members, member.awake = false))

/-- Lets a thread look again if it has been woken. -/
def resume (crowd : Crowd) (thread : Nat) : Crowd :=
  (crowd.act (.resume thread)).getD crowd

/-- Lets every woken thread look again, in the order of their numbers. Looking wakes nobody, so once
each is enough. -/
def settle (crowd : Crowd) : Crowd :=
  (List.range crowd.members.length).foldl resume crowd

/-- An action and all that follows from it of itself. -/
def perform (crowd : Crowd) (action : Action) : Option Crowd :=
  (crowd.act action).map settle

/-- The numbers of the threads at a stage of this kind, ascending. -/
def threads (crowd : Crowd) (kind : Stage → Bool) : List Nat :=
  (crowd.members.zipIdx.filter fun numbered => kind numbered.1.stage).map Prod.snd

def holders (crowd : Crowd) : List Nat :=
  crowd.threads Stage.holds

def writers (crowd : Crowd) : List Nat :=
  crowd.threads Stage.writes

def waiting (crowd : Crowd) : List Nat :=
  crowd.threads Stage.waits

/-- Lets the first holder release the lock, if there is one. -/
def releaseFirst (crowd : Crowd) : Crowd :=
  match crowd.holders with
  | [] => crowd
  | thread :: _ => (crowd.perform (.release thread)).getD crowd

/-- The crowd after up to `n` releases, each by the first holder. -/
def drain : Nat → Crowd → Crowd
  | 0, crowd => crowd
  | n + 1, crowd => drain n crowd.releaseFirst

end Crowd

end LineStore.Lock
