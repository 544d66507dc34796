import LineStore.Server.Connection

/-!
A worker at one connection, step by step.

A reply is written until the socket has accepted all of it. Each try may be accepted in part, or not at
all, or be interrupted, and the server may be asked to stop at any time: then a reply that the client does
not take is left where it is, and no request is begun any more.
-/

namespace LineStore.Server

/-- How a try to read ends. -/
inductive ReadOutcome where
  | chunk (bytes : Bytes)
  | ended
  | wouldBlock
  | interrupted
  | failed
deriving DecidableEq, Repr

/-- How a try to write ends. -/
inductive WriteOutcome where
  /-- The first octets were accepted, one more than this number or all that there are. -/
  | accepted (more : Nat)
  | wouldBlock
  | interrupted
  /-- Not a single octet can be written any more. -/
  | exhausted
  | failed
deriving DecidableEq, Repr

/-- What a worker meets with when it takes a step. -/
structure Weather where
  stopping : Bool := false
  read : ReadOutcome := .wouldBlock
  write : WriteOutcome := .wouldBlock
  sleepless : Bool := false

/-- Where a worker is. -/
inductive Worker.Phase where
  /-- It looks whether it is to stop before it reads. -/
  | checking
  | reading
  /-- It waits until there is something to read. -/
  | waitingToRead
  | framing
  | writing (rest : Bytes)
  /-- It could not write, and looks whether it is to stop. -/
  | stuck (rest : Bytes)
  /-- It waits until it can write. -/
  | waitingToWrite (rest : Bytes)
  | over (ending : Connection.Ending)
deriving DecidableEq, Repr

/-- A worker at its connection. -/
structure Worker (σ : Type) where
  responder : Responder σ
  framer : Framer := {}
  phase : Worker.Phase := .checking
  delivered : Bytes := []
  /-- The frames that were answered, oldest first. -/
  served : List Frame := []
  replies : List Reply := []

namespace Worker

variable {σ : Type}

/-- Takes the next frame and begins to write the reply to it. -/
def takeFrame (engine : Store.Engine σ) (latency : Span) (worker : Worker σ) : Worker σ :=
  match worker.framer.next with
  | (none, framer) => { worker with framer, phase := .checking }
  | (some frame, framer) =>
    if frame.AsksToClose then { worker with framer, phase := .over .dismissed }
    else
      match worker.responder.serveFrame engine latency frame with
      | (some reply, responder) =>
        { worker with
          framer, responder
          phase := .writing reply.encode
          served := worker.served ++ [frame]
          replies := worker.replies ++ [reply] }
      | (none, responder) => { worker with framer, responder, phase := .over .broken }

def write (worker : Worker σ) (rest : Bytes) : WriteOutcome → Worker σ
  | .accepted more =>
    { worker with
      delivered := worker.delivered ++ rest.take (more + 1)
      phase := .writing (rest.drop (more + 1)) }
  | .wouldBlock => { worker with phase := .stuck rest }
  | .interrupted => { worker with phase := .writing rest }
  | .exhausted | .failed => { worker with phase := .over .aborted }

def step (engine : Store.Engine σ) (latency : Span) (weather : Weather) (worker : Worker σ) :
    Worker σ :=
  match worker.phase with
  | .checking => { worker with phase := if weather.stopping then .over .stopped else .reading }
  | .reading =>
    match weather.read with
    | .chunk bytes => { worker with framer := worker.framer.push bytes, phase := .framing }
    | .ended => { worker with phase := .over .finished }
    | .wouldBlock => { worker with phase := .waitingToRead }
    | .interrupted => { worker with phase := .checking }
    | .failed => { worker with phase := .over .aborted }
  | .waitingToRead =>
    { worker with phase := if weather.sleepless then .over .aborted else .checking }
  | .framing => worker.takeFrame engine latency
  | .writing [] => { worker with phase := .framing }
  | .writing rest => worker.write rest weather.write
  | .stuck rest =>
    { worker with phase := if weather.stopping then .over .stopped else .waitingToWrite rest }
  | .waitingToWrite rest =>
    { worker with phase := if weather.sleepless then .over .aborted else .writing rest }
  | .over _ => worker

def run (engine : Store.Engine σ) (latency : Span) (weathers : List Weather) (worker : Worker σ) :
    Worker σ :=
  weathers.foldl (fun worker weather => worker.step engine latency weather) worker

/-- All replies that were begun, in full. -/
def owed (worker : Worker σ) : Bytes :=
  worker.replies.flatMap Reply.encode

end Worker

end LineStore.Server
