import LineStore.Telemetry.Histogram

/-!
What a server counts, in machine words that wrap around.

An event changes several words, one after another, and the words are shared by all workers. So the
changes are kept apart: `Counters.apply` makes one of them, `Counters.record` all those of an event.
-/

namespace LineStore.Telemetry

/-- Counts of requests and connections. -/
structure Counters where
  /-- Requests that were begun. -/
  requests : UInt64 := 0
  /-- Replies that told of a failure. -/
  errors : UInt64 := 0
  /-- Requests that were begun and not ended. -/
  inflight : UInt64 := 0
  accepted : UInt64 := 0
  closed : UInt64 := 0
  latency : Histogram := .ofBounds Histogram.requestBounds
deriving DecidableEq, Repr

/-- Something that is counted. -/
inductive Event where
  | requestStart
  /-- A request ends after this time. -/
  | requestEnd (latency : Span)
  | error
  | accepted
  | closed
deriving DecidableEq, Repr

/-- One word that an event changes. -/
inductive Update where
  | request
  | enter
  | leave
  | latency (update : Histogram.Update)
  | error
  | accept
  | close
deriving DecidableEq, Repr

/-- The changes that an event makes, in their order. -/
def Event.updates : Event → List Update
  | requestStart => [.request, .enter]
  | requestEnd span => .leave :: (Histogram.updates span).map .latency
  | error => [.error]
  | accepted => [.accept]
  | closed => [.close]

namespace Counters

def apply (counters : Counters) : Update → Counters
  | .request => { counters with requests := counters.requests + 1 }
  | .enter => { counters with inflight := counters.inflight + 1 }
  | .leave => { counters with inflight := counters.inflight - 1 }
  | .latency update => { counters with latency := counters.latency.apply update }
  | .error => { counters with errors := counters.errors + 1 }
  | .accept => { counters with accepted := counters.accepted + 1 }
  | .close => { counters with closed := counters.closed + 1 }

def record (counters : Counters) (event : Event) : Counters :=
  event.updates.foldl apply counters

def openConnections (counters : Counters) : UInt64 :=
  if counters.closed ≤ counters.accepted then counters.accepted - counters.closed else 0

def text (counters : Counters) : String :=
  s!"requests={counters.requests} errors={counters.errors} " ++
    s!"connections={counters.accepted} mean_latency_us={counters.latency.mean}"

end Counters

end LineStore.Telemetry
