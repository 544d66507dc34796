import LineStore.Telemetry.Counters

/-!
Several workers that count on the same counters.

Each change of a word is a step of its own, and the steps of different workers mix in any order. A
worker counts what it does in the course of serving connections and requests. A request over which the
engine breaks down ends its worker, and nothing more is counted for it.
-/

namespace LineStore.Telemetry

/-- What a worker is about, apart from counting. -/
inductive Duty where
  | idle
  /-- It has a connection and no request. -/
  | connected
  | executing
  | broken
deriving DecidableEq, Repr

/-- A worker and the changes it has still to make before it goes on. -/
structure Clerk where
  duty : Duty := .idle
  due : List Update := []
deriving DecidableEq, Repr

/-- Workers, the counters they share, and what has really happened. -/
structure Traffic where
  counters : Counters := {}
  clerks : List Clerk
  /-- For each reply, whether it told of a failure. -/
  replies : List Bool := []
  /-- The requests over which the engine broke down. -/
  breakdowns : Nat := 0
deriving DecidableEq, Repr

/-- A step of a worker. -/
inductive Errand where
  | update
  | accept
  | begin
  /-- The request is answered after this time. -/
  | answer (isError : Bool) (latency : Span)
  | breakDown
  | close
deriving DecidableEq, Repr

namespace Traffic

/-- Workers that have done nothing. -/
def start (workers : Nat) : Traffic where
  clerks := List.replicate workers {}

/-- Puts a worker on another duty, with changes to be made on the way. -/
def assign (traffic : Traffic) (worker : Nat) (duty : Duty) (due : List Update) : Traffic :=
  { traffic with clerks := traffic.clerks.set worker { duty, due } }

/-- What a step of a worker leads to, or `none` if the worker is not where the step begins. -/
def act (traffic : Traffic) (worker : Nat) (errand : Errand) : Option Traffic :=
  match traffic.clerks[worker]?, errand with
  | some { duty, due := update :: rest }, .update =>
    let counters := traffic.counters.apply update
    some { traffic.assign worker duty rest with counters }
  | some { duty := .idle, due := [] }, .accept =>
    some (traffic.assign worker .connected Event.accepted.updates)
  | some { duty := .connected, due := [] }, .begin =>
    some (traffic.assign worker .executing Event.requestStart.updates)
  | some { duty := .executing, due := [] }, .answer isError latency =>
    let due := (Event.requestEnd latency).updates ++ if isError then Event.error.updates else []
    let replies := traffic.replies ++ [isError]
    some { traffic.assign worker .connected due with replies }
  | some { duty := .executing, due := [] }, .breakDown =>
    let breakdowns := traffic.breakdowns + 1
    some { traffic.assign worker .broken [] with breakdowns }
  | some { duty := .connected, due := [] }, .close =>
    some (traffic.assign worker .idle Event.closed.updates)
  | _, _ => none

end Traffic

end LineStore.Telemetry
