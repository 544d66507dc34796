import LineStore.Responder

/-!
One connection: octets in, reply lines out.

A worker reads what has arrived, answers every frame it can cut, each by one line, and reads on, until
the client is done, asks to be disconnected, or the engine breaks down. `Connection.heard` says which
frames of a whole stream are answered, without reading it piece by piece.
-/

namespace LineStore

/-- A frame by which a client asks to be disconnected. -/
def Frame.AsksToClose : Frame → Prop
  | .line bytes => bytes.IsBareLine
  | .overlong => False

instance (frame : Frame) : Decidable frame.AsksToClose :=
  match frame with
  | .line bytes => inferInstanceAs (Decidable bytes.IsBareLine)
  | .overlong => inferInstanceAs (Decidable False)

namespace Server.Connection

variable {σ : Type}

/-- Why a connection ends from the side of the server. -/
inductive Ending where
  | finished
  | dismissed
  /-- The engine broke down, and the worker with it. -/
  | broken
  | aborted
  | stopped
deriving DecidableEq, Repr

/-- What came of some frames: the octets written, the responder after them, and why they are the last
ones, if they are. -/
structure Answered (σ : Type) where
  written : Bytes
  responder : Responder σ
  ending? : Option Ending := none

/-- Answers frames in their order, up to one that ends the connection. -/
def answerFrames (engine : Store.Engine σ) (latency : Span) :
    List Frame → Responder σ → Answered σ
  | [], responder => { written := [], responder }
  | frame :: rest, responder =>
    if frame.AsksToClose then { written := [], responder, ending? := some .dismissed }
    else
      match responder.serveFrame engine latency frame with
      | (none, responder) => { written := [], responder, ending? := some .broken }
      | (some reply, responder) =>
        let answered := answerFrames engine latency rest responder
        { answered with written := reply.encode ++ answered.written }

/-- Takes in octets that were read and answers every frame that is whole now. -/
def receive (engine : Store.Engine σ) (latency : Span) (chunk : Bytes) (framer : Framer)
    (responder : Responder σ) : Answered σ × Framer :=
  let (frames, framer) := (framer.push chunk).drain
  (answerFrames engine latency frames responder, framer)

/-- Takes in one chunk after another, up to one in which the connection ends. -/
def receiveAll (engine : Store.Engine σ) (latency : Span) :
    List Bytes → Framer → Responder σ → Answered σ
  | [], _, responder => { written := [], responder }
  | chunk :: rest, framer, responder =>
    let (answered, framer) := receive engine latency chunk framer responder
    match answered.ending? with
    | some _ => answered
    | none =>
      let later := receiveAll engine latency rest framer answered.responder
      { later with written := answered.written ++ later.written }

/-- The frames of a stream that are answered: those before the client asks to be disconnected. -/
def heard (bytes : Bytes) : List Frame :=
  (Frame.ofStream bytes).takeWhile fun frame => ¬ frame.AsksToClose

end Server.Connection

end LineStore
