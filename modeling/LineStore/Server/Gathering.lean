import LineStore.Server.Connection

/-!
Several connections over one responder.

Each connection has a framer of its own and all of them act on one store. The pieces of the different
streams arrive in any order, each piece at one connection.
-/

namespace LineStore.Server

/-- The server's end of a connection. -/
structure Guest where
  framer : Framer := {}
  heard : Bytes := []
  ending? : Option Connection.Ending := none
deriving DecidableEq, Repr

/-- A responder and the connections that share it, by number. -/
structure Gathering (σ : Type) where
  responder : Responder σ
  guests : List Guest

namespace Gathering

variable {σ : Type}

/-- A responder with `count` fresh connections. -/
def start (responder : Responder σ) (count : Nat) : Gathering σ where
  responder
  guests := List.replicate count {}

/-- A piece of the stream of a connection arrives. Nothing is read from a connection that has ended. -/
def receive (engine : Store.Engine σ) (latency : Span) (gathering : Gathering σ) (number : Nat)
    (chunk : Bytes) : Gathering σ :=
  match gathering.guests[number]? with
  | some guest =>
    if guest.ending? = none then
      let (answered, framer) := Connection.receive engine latency chunk guest.framer gathering.responder
      { responder := answered.responder
        guests := gathering.guests.set number
          { framer, heard := guest.heard ++ answered.written, ending? := answered.ending? } }
    else gathering
  | none => gathering

/-- Pieces arrive one after another, each at the connection of the number beside it. -/
def receiveAll (engine : Store.Engine σ) (latency : Span) (gathering : Gathering σ)
    (arrivals : List (Nat × Bytes)) : Gathering σ :=
  arrivals.foldl (fun gathering arrival => gathering.receive engine latency arrival.1 arrival.2)
    gathering

def heard (gathering : Gathering σ) (number : Nat) : Bytes :=
  (gathering.guests[number]?.getD {}).heard

/-- The pieces of the stream of one connection. -/
def piecesOf (number : Nat) (arrivals : List (Nat × Bytes)) : List Bytes :=
  (arrivals.filter (·.1 = number)).map Prod.snd

/-- The stream of one connection. -/
def streamOf (number : Nat) (arrivals : List (Nat × Bytes)) : Bytes :=
  (piecesOf number arrivals).flatten

/-- The requests that a stream makes. -/
def requestsOf (stream : Bytes) : List Request :=
  (Connection.heard stream).filterMap fun frame =>
    match Responder.readFrame frame with
    | .request request => some request
    | _ => none

end Gathering

end LineStore.Server
