import LineStore.Lock.Crowd

/-!
A crowd and what its writers have gone through.

The three lists of a history are kept for those who want to speak of the past. No action looks at them.
-/

namespace LineStore.Lock

/-- A crowd with its past. Each list names threads, oldest event first, and a thread as often as the event
happened to it. -/
structure History where
  crowd : Crowd
  arrivals : List Nat := []
  draws : List Nat := []
  grants : List Nat := []
deriving DecidableEq, Repr

namespace History

/-- Whether an action is a request for write access. -/
def isArrival : Action → Bool
  | .acquire _ .write => true
  | _ => false

/-- What an action leads to, and the past with it, or `none` if the action is not possible. -/
def act (history : History) (action : Action) : Option History :=
  (history.crowd.act action).map fun after =>
    let thread := action.thread
    let old := history.crowd.stageOf thread
    let new := after.stageOf thread
    { crowd := after
      arrivals := history.arrivals ++ if isArrival action then [thread] else []
      draws := history.draws ++ if old.ticket? = none ∧ new.ticket? ≠ none then [thread] else []
      grants := history.grants ++ if ¬ old.writes ∧ new.writes then [thread] else [] }

/-- The histories of a lock and its threads. -/
inductive Reachable (capacity count : Nat) : History → Prop where
  | start : Reachable capacity count { crowd := .ofSize capacity count }
  | step {before after : History} {action : Action} : Reachable capacity count before →
      before.act action = some after → Reachable capacity count after

end History

end LineStore.Lock
