import LineStore.Client.Link
import LineStore.Server.Gathering

/-!
Clients that call one server.

Each client has a connection of its own. A call sends one line, which reaches the server in pieces, and
reads the answer before the next call of any client begins.
-/

namespace LineStore.Client

/-- A server as the peer of one of its clients. What the client sends arrives in the pieces that `cut`
makes of it. -/
def serverPeer {σ : Type} (engine : Store.Engine σ) (latency : Span) (number : Nat)
    (cut : Bytes → List Bytes) : Peer (Server.Gathering σ) := fun octets gathering =>
  let after := gathering.receiveAll engine latency ((cut octets).map fun piece => (number, piece))
  ((after.heard number).drop (gathering.heard number).length, after)

/-- A server and its clients. -/
structure Company (σ : Type) where
  gathering : Server.Gathering σ
  /-- What each client has been sent and has not read. -/
  unread : List Bytes

/-- A call of a client. -/
structure Visit where
  client : Nat
  call : Call
  /-- How the line of the call is cut into pieces on its way. -/
  cut : Bytes → List Bytes

/-- Whether nothing is lost on the way. -/
def Visit.Whole (visit : Visit) : Prop :=
  ∀ octets, (visit.cut octets).flatten = octets

namespace Company

variable {σ : Type}

/-- A server and `count` clients that have not called it. -/
def start (responder : Responder σ) (count : Nat) : Company σ where
  gathering := .start responder count
  unread := List.replicate count []

def visit (engine : Store.Engine σ) (latency : Span) (company : Company σ) (visit : Visit) :
    Except Failure Answer × Company σ :=
  let link : Link (Server.Gathering σ) :=
    { peer := company.gathering, unread := company.unread[visit.client]?.getD [] }
  let (answer, link) := link.call (serverPeer engine latency visit.client visit.cut) visit.call
  (answer, { gathering := link.peer, unread := company.unread.set visit.client link.unread })

def visitAll (engine : Store.Engine σ) (latency : Span) (company : Company σ) :
    List Visit → List (Except Failure Answer) × Company σ
  | [] => ([], company)
  | visit :: rest =>
    let (answer, company) := company.visit engine latency visit
    let (answers, company) := visitAll engine latency company rest
    (answer :: answers, company)

end Company

/-- The operation that a call is meant to be, if it is one. -/
def Call.operation? : Call → Option Store.Operation
  | create key text => some (.insert key text)
  | read key => some (.search key)
  | update key text => some (.update key text)
  | delete key => some (.delete key)
  | request _ => none

end LineStore.Client
