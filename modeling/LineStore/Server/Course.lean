import LineStore.Server.Worker

/-!
A worker at its connection among other workers, and what it has read and carried out so far.

Between two of its steps other workers may change the responder. What a worker has done to the responder is
told by the list of all changes: a responder that goes through them again must come out the same.
-/

namespace LineStore

/-- The operation that a frame asks the engine for, if it asks for one. -/
def Frame.operation? (frame : Frame) : Option Store.Operation :=
  match Responder.readFrame frame with
  | .request request => request.operation?.toOption
  | _ => none

namespace Server.Worker

variable {σ : Type}

/-- Whether a worker has a reply to write, or to find written. -/
def Phase.isWriting : Phase → Bool
  | .writing _ | .stuck _ | .waitingToWrite _ => true
  | _ => false

def Phase.isOver : Phase → Bool
  | .over _ => true
  | _ => false

/-- The octets that the next step reads. -/
def intake (weather : Weather) (worker : Worker σ) : Bytes :=
  match worker.phase, weather.read with
  | .reading, .chunk bytes => bytes
  | _, _ => []

/-- The frame that the next step carries out, if it carries one out. -/
def executing (worker : Worker σ) : Option Frame :=
  match worker.phase with
  | .framing => worker.framer.next.1.filter fun frame => ¬ frame.AsksToClose
  | _ => none

/-- What can happen to the responder of a worker. -/
inductive Change (σ : Type) where
  /-- The worker carries out a frame, in this time. -/
  | serve (frame : Frame) (latency : Span)
  /-- Other workers leave this responder. -/
  | others (responder : Responder σ)

/-- The frames that were carried out, oldest first. -/
def executed (changes : List (Change σ)) : List Frame :=
  changes.filterMap fun
    | .serve frame _ => some frame
    | .others _ => none

/-- What a responder comes to by one change after the other, and its answers to the frames. -/
def replay (engine : Store.Engine σ) :
    List (Change σ) → Responder σ → List (Option Reply) × Responder σ
  | [], responder => ([], responder)
  | .serve frame latency :: rest, responder =>
    let (answer, responder) := responder.serveFrame engine latency frame
    let (answers, responder) := replay engine rest responder
    (answer :: answers, responder)
  | .others responder :: rest, _ => replay engine rest responder

/-- What the next step does to the responder. -/
def changing (latency : Span) (worker : Worker σ) : List (Change σ) :=
  (worker.executing.map fun frame => .serve frame latency).toList

/-- What a worker can come to that began with the responder `first`: the stream that it has read, the changes
of the responder, and its state. -/
inductive Course (engine : Store.Engine σ) (first : Responder σ) :
    Bytes → List (Change σ) → Worker σ → Prop where
  | start : Course engine first [] [] { responder := first }
  | step {stream : Bytes} {changes : List (Change σ)} {worker : Worker σ} (latency : Span)
      (weather : Weather) : Course engine first stream changes worker →
      Course engine first (stream ++ worker.intake weather) (changes ++ worker.changing latency)
        (worker.step engine latency weather)
  /-- Others have changed the responder. -/
  | meanwhile {stream : Bytes} {changes : List (Change σ)} {worker : Worker σ}
      (responder : Responder σ) : Course engine first stream changes worker →
      Course engine first stream (changes ++ [.others responder]) { worker with responder }

/-- Goes on until a reply is written or given up, as long as the weathers last. -/
def writeAll (engine : Store.Engine σ) (latency : Span) : List Weather → Worker σ → Worker σ
  | [], worker => worker
  | weather :: rest, worker =>
    if worker.phase.isWriting then writeAll engine latency rest (worker.step engine latency weather)
    else worker

end Server.Worker

end LineStore
