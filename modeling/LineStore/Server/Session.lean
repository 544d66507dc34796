import LineStore.Server.Worker

/-!
A worker and its client, as long as nothing goes wrong.

The client sends its stream in pieces and takes the replies in as it likes. A try to read or to write may
find the socket not ready, or be interrupted, as often as the lists say. When they are over the client has
closed its side and takes in whatever it is sent.
-/

namespace LineStore.Server

/-- How a try to read ends. -/
inductive Inflow where
  | chunk (bytes : Bytes)
  | wouldBlock
  | interrupted
deriving DecidableEq, Repr

namespace Inflow

def outcome : Inflow → ReadOutcome
  | chunk bytes => .chunk bytes
  | wouldBlock => .wouldBlock
  | interrupted => .interrupted

def bytes : Inflow → Bytes
  | chunk bytes => bytes
  | _ => []

end Inflow

/-- How a try to write ends. -/
inductive Outflow where
  | accepted (more : Nat)
  | wouldBlock
  | interrupted
deriving DecidableEq, Repr

def Outflow.outcome : Outflow → WriteOutcome
  | accepted more => .accepted more
  | wouldBlock => .wouldBlock
  | interrupted => .interrupted

/-- A worker and how its next tries to read and to write will end. -/
structure Session where
  worker : Worker Store
  reads : List Inflow
  writes : List Outflow

namespace Session

/-- A new connection. -/
def start (responder : Responder Store) (reads : List Inflow) (writes : List Outflow) : Session where
  worker := { responder }
  reads
  writes

/-- The octets that the client has still to send. -/
def stream (session : Session) : Bytes :=
  session.reads.flatMap Inflow.bytes

def weather (session : Session) : Weather where
  read := (session.reads.head?.map Inflow.outcome).getD .ended
  write := (session.writes.head?.map Outflow.outcome).getD (.accepted 0)

/-- A step of the worker. It uses up how a try ends if it makes one. -/
def step (latency : Span) (session : Session) : Session where
  worker := session.worker.step Store.engine latency session.weather
  reads :=
    match session.worker.phase with
    | .reading => session.reads.tail
    | _ => session.reads
  writes :=
    match session.worker.phase with
    | .writing (_ :: _) => session.writes.tail
    | _ => session.writes

end Session

end LineStore.Server
