import LineStore.Store.Operation
import LineStore.Telemetry.Counters
import LineStore.Wire.Framer
import LineStore.Wire.Reply
import LineStore.Wire.Request

/-!
From requests to replies.

A responder has an engine's state and the counters of the server. It answers every buffer or frame that
holds a line, counts it as one request, and hides the faults of the engine behind one reply.
-/

namespace LineStore

/-- What requests act on. -/
structure Responder (σ : Type) where
  state : σ
  counters : Telemetry.Counters := {}

/-- How a responder reacts. -/
inductive Reaction where
  /-- It answers. -/
  | reply (reply : Reply)
  /-- There is no whole line to answer. -/
  | wait
  /-- The engine broke down over the request. -/
  | breakdown
deriving DecidableEq, Repr

/-- The operation that a request asks for. Its value must go with its command. -/
def Request.operation? (request : Request) : Except Fault Store.Operation :=
  match request.command, request.value? with
  | .create, some text => .ok (.insert request.key text)
  | .read, none => .ok (.search request.key)
  | .update, some text => .ok (.update request.key text)
  | .delete, none => .ok (.delete request.key)
  | _, _ => .error .malformedRequest

/-- The reply that tells the outcome of an operation. -/
def Reply.ofOutcome : Store.Outcome → Reply
  | .insert true => .created
  | .insert false => .collision
  | .search (some text) => .value text
  | .search none => .notFound
  | .update true => .updated
  | .update false => .notFound
  | .delete true => .deleted
  | .delete false => .notFound

namespace Responder

variable {σ : Type}

/-- Carries out a request without counting it. -/
def execute (engine : Store.Engine σ) (request : Request) (state : σ) : Reaction × σ :=
  match request.operation? with
  | .error _ => (.reply .internalError, state)
  | .ok operation =>
    match engine operation state with
    | (.done outcome, state) => (.reply (.ofOutcome outcome), state)
    | (.refused _, state) => (.reply .internalError, state)
    | (.broken, state) => (.breakdown, state)

/-- The reaction to a reading, without counting it. -/
def react (engine : Store.Engine σ) (reading : Reading) (state : σ) : Reaction × σ :=
  match reading with
  | .incomplete => (.wait, state)
  | .invalid => (.reply .invalidCommand, state)
  | .request request => execute engine request state

/-- The events of a reaction that took `latency`. A request over which the engine broke down is begun
and never ended. -/
def events (latency : Span) : Reaction → List Telemetry.Event
  | .wait => []
  | .breakdown => [.requestStart]
  | .reply reply =>
    [.requestStart, .requestEnd latency] ++ if reply.isError then [.error] else []

/-- Answers a reading, in the time `latency`, and counts it. -/
def answer (engine : Store.Engine σ) (latency : Span) (reading : Reading) (responder : Responder σ) :
    Reaction × Responder σ :=
  let (reaction, state) := react engine reading responder.state
  (reaction, { state, counters := (events latency reaction).foldl .record responder.counters })

/-- Answers the first line of a buffer. -/
def serve (engine : Store.Engine σ) (latency : Span) (buffer : Bytes) (responder : Responder σ) :
    Reaction × Responder σ :=
  responder.answer engine latency (Request.read buffer)

def readFrame : Frame → Reading
  | .line bytes => Request.read bytes
  | .overlong => .invalid

/-- Answers a frame, or gives no answer (`none`) if the engine breaks down over it. A frame without a line
feed, which no framer cuts, is refused and not counted. -/
def serveFrame (engine : Store.Engine σ) (latency : Span) (frame : Frame) (responder : Responder σ) :
    Option Reply × Responder σ :=
  match responder.answer engine latency (readFrame frame) with
  | (.reply reply, responder) => (some reply, responder)
  | (.wait, responder) => (some .invalidCommand, responder)
  | (.breakdown, responder) => (none, responder)

def serveFrames (engine : Store.Engine σ) (latency : Span) :
    List Frame → Responder σ → List (Option Reply) × Responder σ
  | [], responder => ([], responder)
  | frame :: rest, responder =>
    let (reply?, responder) := responder.serveFrame engine latency frame
    let (replies, responder) := serveFrames engine latency rest responder
    (reply? :: replies, responder)

end Responder

end LineStore
