import LineStore.Responder

/-!
Framers side by side over one responder.

Octets arrive at the framers, and these are asked for frames, in any order. Every frame is served, also one
by which a client would ask to be disconnected.
-/

namespace LineStore.Server

/-- One thing that happens at a switchboard. Its framers are numbered. -/
inductive Signal where
  | arrive (number : Nat) (bytes : Bytes)
  /-- The next frame of a framer is served, if it gives one, in the time `latency`. -/
  | serve (number : Nat) (latency : Span)
deriving DecidableEq, Repr

/-- A responder and the framers that cut the frames for it. -/
structure Switchboard (σ : Type) where
  responder : Responder σ
  framers : List Framer
  /-- The frames that were served and the replies to them, oldest first. No signal looks at this list. -/
  served : List (Frame × Option Reply) := []

namespace Switchboard

variable {σ : Type}

/-- A responder with `count` framers that have taken in nothing. -/
def start (responder : Responder σ) (count : Nat) : Switchboard σ where
  responder
  framers := List.replicate count {}

def act (engine : Store.Engine σ) (board : Switchboard σ) : Signal → Switchboard σ
  | .arrive number bytes => { board with framers := board.framers.modify number (·.push bytes) }
  | .serve number latency =>
    match board.framers[number]? with
    | none => board
    | some framer =>
      match framer.next with
      | (none, framer) => { board with framers := board.framers.set number framer }
      | (some frame, framer) =>
        let (reply?, responder) := board.responder.serveFrame engine latency frame
        { responder
          framers := board.framers.set number framer
          served := board.served ++ [(frame, reply?)] }

/-- The switchboard after one signal after another. -/
def actAll (engine : Store.Engine σ) (board : Switchboard σ) (signals : List Signal) :
    Switchboard σ :=
  signals.foldl (act engine) board

end Switchboard

end LineStore.Server
