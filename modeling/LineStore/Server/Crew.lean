import LineStore.Server.Worker

/-!
Several workers at their connections, over one responder, step by step.

The steps of different workers mix in any order, and each change of a counter is a step of its own. So a
request is begun, carried out and ended in many steps, and other workers count in between. A request over
which the engine breaks down ends its worker, and neither its end nor that of its connection is counted.
-/

namespace LineStore.Server

/-- Where a worker of a crew is. -/
inductive Seat where
  | idle
  /-- It has a connection, and is in no request. -/
  | serving (framer : Framer) (phase : Worker.Phase)
  /-- It has begun a request, and asks the engine next. -/
  | executing (framer : Framer) (reading : Reading)
  /-- The engine broke down over its request. -/
  | broken
deriving DecidableEq, Repr

/-- A worker of a crew, and the changes of counters it has to make before it goes on. -/
structure Hand where
  post : Seat := .idle
  due : List Telemetry.Update := []
deriving DecidableEq, Repr

namespace Hand

/-- Whether a worker is in the middle of a request, its counting included. -/
def inRequest : Hand → Bool
  | { post := .executing .., .. } => true
  | { due, .. } => due.any fun update => update ≠ .accept ∧ update ≠ .close

/-- Whether a worker has a connection whose beginning has been counted, and its end not yet. -/
def serves : Hand → Bool
  | { post := .idle, due } => .close ∈ due
  | { post := .broken, .. } => false
  | { due, .. } => .accept ∉ due

end Hand

/-- A step of a worker: who takes it, and what it meets with. -/
structure Turn where
  worker : Nat
  /-- Whether a connection has arrived, and then whether its socket can be watched. -/
  arrival? : Option Bool := none
  weather : Weather := {}
  /-- How long the request has taken that the step ends, if it ends one. -/
  latency : Span := {}

/-- Workers and the responder that they share. -/
structure Crew (σ : Type) where
  responder : Responder σ
  hands : List Hand
  /-- What has happened, oldest first. No step looks at this list or at those below. -/
  events : List Telemetry.Event := []
  /-- The replies that were made, oldest first. -/
  replies : List Reply := []
  /-- The requests over which the engine broke down. -/
  breakdowns : List Reading := []

namespace Crew

variable {σ : Type}

/-- A crew of `count` workers that have done nothing. -/
def start (state : σ) (count : Nat) : Crew σ where
  responder := { state }
  hands := List.replicate count {}

def counters (crew : Crew σ) : Telemetry.Counters :=
  crew.responder.counters

/-- The connections that are served. -/
def served (crew : Crew σ) : Nat :=
  crew.hands.countP Hand.serves

/-- The connections that were lost to breakdowns. -/
def lost (crew : Crew σ) : Nat :=
  crew.hands.countP fun hand => hand.post = .broken

/-- Sends a worker to another post. It has the events on the way to count before it goes on. -/
def post (crew : Crew σ) (worker : Nat) (post : Seat) (events : List Telemetry.Event := []) :
    Crew σ :=
  { crew with
    hands := crew.hands.set worker { post, due := events.flatMap Telemetry.Event.updates }
    events := crew.events ++ events }

/-- Makes one change of a counter that is due. -/
def count (crew : Crew σ) (worker : Nat) (post : Seat) (update : Telemetry.Update)
    (rest : List Telemetry.Update) : Crew σ :=
  { crew with
    responder := { crew.responder with counters := crew.responder.counters.apply update }
    hands := crew.hands.set worker { post, due := rest } }

/-- Takes the next frame and begins its request. A frame that is no whole line would be refused without
being counted. -/
def takeFrame (crew : Crew σ) (worker : Nat) (framer : Framer) : Crew σ :=
  match framer.next with
  | (none, framer) => crew.post worker (.serving framer .checking)
  | (some frame, framer) =>
    if frame.AsksToClose then crew.post worker (.serving framer (.over .dismissed))
    else
      match Responder.readFrame frame with
      | .incomplete =>
        { crew.post worker (.serving framer (.writing Reply.invalidCommand.encode)) with
          replies := crew.replies ++ [.invalidCommand] }
      | reading => crew.post worker (.executing framer reading) [.requestStart]

/-- Carries a request out and ends it. That it was begun, the first of its events, has been counted. -/
def execute (engine : Store.Engine σ) (latency : Span) (crew : Crew σ) (worker : Nat) (framer : Framer)
    (reading : Reading) : Crew σ :=
  let (reaction, state) := Responder.react engine reading crew.responder.state
  let responder := { crew.responder with state }
  let events := (Responder.events latency reaction).tail
  match reaction with
  | .reply reply =>
    { crew.post worker (.serving framer (.writing reply.encode)) events with
      responder, replies := crew.replies ++ [reply] }
  | .breakdown =>
    { crew.post worker .broken events with responder, breakdowns := crew.breakdowns ++ [reading] }
  | .wait => crew

/-- A step of the worker at a socket, which is like that of a worker alone. -/
def attend (engine : Store.Engine σ) (turn : Turn) (crew : Crew σ) (framer : Framer)
    (phase : Worker.Phase) : Crew σ :=
  let worker := Worker.step engine turn.latency turn.weather { responder := crew.responder, framer, phase }
  crew.post turn.worker (.serving worker.framer worker.phase)

def act (engine : Store.Engine σ) (crew : Crew σ) (turn : Turn) : Crew σ :=
  match crew.hands[turn.worker]? with
  | none => crew
  | some { post, due := update :: rest } => crew.count turn.worker post update rest
  | some { post := .idle, due := [] } =>
    match turn.arrival? with
    | some watched =>
      if turn.weather.stopping then crew
      else
        crew.post turn.worker (.serving {} (if watched then .checking else .over .aborted)) [.accepted]
    | none => crew
  | some { post := .serving framer .framing, due := [] } => crew.takeFrame turn.worker framer
  | some { post := .serving _ (.over _), due := [] } => crew.post turn.worker .idle [.closed]
  | some { post := .serving framer phase, due := [] } => crew.attend engine turn framer phase
  | some { post := .executing framer reading, due := [] } =>
    crew.execute engine turn.latency turn.worker framer reading
  | some { post := .broken, due := [] } => crew

/-- The crew after one step after another. -/
def actAll (engine : Store.Engine σ) (crew : Crew σ) (turns : List Turn) : Crew σ :=
  turns.foldl (act engine) crew

end Crew

end LineStore.Server
