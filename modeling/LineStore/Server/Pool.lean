import LineStore.Server.Connection
import LineStore.Server.Failure
import LineStore.Store.Dump

/-!
A pool of workers over one store.

Connections are taken on in the order in which they were opened, each by one worker, which serves it to
its end. A worker whose engine breaks down takes its connection with it and serves no other. Whatever
can be served is served at once, so between two calls of a client nothing is left to do.
-/

namespace LineStore.Server

/-- What a worker does. -/
inductive Post where
  | idle
  | serving (connection : Nat)
  | broken
deriving DecidableEq, Repr

/-- One connection, from both ends. -/
structure Channel where
  framer : Framer := {}
  /-- What the client has sent and no worker has read. -/
  inbox : Bytes := []
  /-- What has been written and the client has not read. -/
  outbox : Bytes := []
  /-- Whether the client has closed its side. -/
  finished : Bool := false
  /-- Whether the server has closed its side. -/
  closed : Bool := false
deriving DecidableEq, Repr

/-- Workers, connections and what they share. -/
structure Pool where
  trouble : Store.Trouble := {}
  responder : Responder Store
  posts : List Post
  channels : List (Nat × Channel) := []
  /-- The connections that no worker has taken on, oldest first. -/
  queue : List Nat := []

namespace Pool

/-- Workers without work, as many as there are to be. There must be one. -/
def start (workers : Nat) (store : Store) (trouble : Store.Trouble) : Except Failure Pool :=
  if workers = 0 then .error (.setting (.zero .workers))
  else
    .ok
      { trouble
        responder := { state := store }
        posts := List.replicate workers .idle }

/-- The connection of a number. One that was never opened has nothing in it. -/
def channel (pool : Pool) (connection : Nat) : Channel :=
  (pool.channels.lookup connection).getD {}

/-- Puts another state of a connection in the place of the old one. -/
def setChannel (pool : Pool) (connection : Nat) (channel : Channel) : Pool :=
  { pool with
    channels := pool.channels.map fun numbered =>
      if numbered.1 = connection then (connection, channel) else numbered }

def count (pool : Pool) (event : Telemetry.Event) : Pool :=
  let responder := pool.responder
  { pool with responder := { responder with counters := responder.counters.record event } }

/-- Gives the worker of a connection another post. -/
def repost (pool : Pool) (connection : Nat) (post : Post) : Pool :=
  { pool with
    posts := pool.posts.map fun current =>
      if current = .serving connection then post else current }

/-- Ends a connection from the side of the server, and frees its worker unless that one broke down. -/
def close (pool : Pool) (connection : Nat) (ending : Connection.Ending) : Pool :=
  let pool := pool.setChannel connection { pool.channel connection with closed := true }
  if ending = .broken then pool.repost connection .broken
  else (pool.count .closed).repost connection .idle

/-- Lets the worker of a connection read and answer what the client has sent. -/
def attend (pool : Pool) (connection : Nat) : Pool :=
  let channel := pool.channel connection
  if .serving connection ∈ pool.posts then
    let (answered, framer) :=
      Connection.receive (Store.troubledEngine pool.trouble) {} channel.inbox channel.framer
        pool.responder
    let pool := { pool with responder := answered.responder }
    let pool := pool.setChannel connection
      { channel with framer, inbox := [], outbox := channel.outbox ++ answered.written }
    match answered.ending? with
    | some ending => pool.close connection ending
    | none => if channel.finished then pool.close connection .finished else pool
  else pool

/-- Lets the first idle worker take on a connection, if there is an idle worker. -/
def accept? (pool : Pool) (connection : Nat) : Option Pool :=
  (pool.posts.idxOf? .idle).map fun worker =>
    ({ pool with posts := pool.posts.set worker (.serving connection) }.count .accepted).attend
      connection

/-- Lets idle workers take on the connections that wait, until there are no more of the one or the
other. -/
def acceptAll (pool : Pool) : List Nat → Pool
  | [] => { pool with queue := [] }
  | connection :: rest =>
    match pool.accept? connection with
    | some pool => pool.acceptAll rest
    | none => { pool with queue := connection :: rest }

/-- Serves a connection, and then those that can be taken on because of it. -/
def settle (pool : Pool) (connection : Nat) : Pool :=
  let pool := pool.attend connection
  pool.acceptAll pool.queue

/-! ### What clients do -/

def connect (pool : Pool) (connection : Nat) : Pool :=
  let channel : Channel := {}
  { pool with channels := pool.channels ++ [(connection, channel)] }.acceptAll (pool.queue ++ [connection])

def send (pool : Pool) (connection : Nat) (octets : Bytes) : Pool :=
  let channel := pool.channel connection
  (pool.setChannel connection { channel with inbox := channel.inbox ++ octets }).settle connection

/-- A client reads up to `n` lines of replies. There are fewer only if the server has closed. -/
def hear (pool : Pool) (connection n : Nat) : List Bytes × Pool :=
  let channel := pool.channel connection
  let (replies, tail) := channel.outbox.lines
  (replies.take n,
    pool.setChannel connection { channel with outbox := (replies.drop n).flatten ++ tail })

/-- A client leaves: nothing more is heard of its connection. -/
def forget (pool : Pool) (connection : Nat) : Pool :=
  { pool with
    channels := pool.channels.filter (·.1 ≠ connection)
    queue := pool.queue.filter (· ≠ connection) }

/-- A client closes its side and reads all replies that are still to come. -/
def finish (pool : Pool) (connection : Nat) : List Bytes × Pool :=
  let channel := { pool.channel connection with finished := true }
  let pool := (pool.setChannel connection channel).settle connection
  ((pool.channel connection).outbox.lines.1, pool.forget connection)

def reset (pool : Pool) (connection : Nat) : Pool :=
  let served := .serving connection ∈ pool.posts
  let pool := if served then pool.close connection .aborted else pool
  let pool := pool.forget connection
  pool.acceptAll pool.queue

/-- Stops the pool and gives back the store. A worker that broke down is reported instead, the first of
them if there are several. -/
def stop (pool : Pool) : Except Failure Store :=
  match pool.posts.idxOf? .broken with
  | some worker => .error (.workerBroke worker)
  | none => .ok pool.responder.state

end Pool

end LineStore.Server
