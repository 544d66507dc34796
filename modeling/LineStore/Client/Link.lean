import LineStore.Client.Call

/-!
A client's end of a connection.

A call sends one line and reads one line. What is read is everything up to and including the next line
feed, or everything that is left if the peer has ended its side, so an answer that was cut short is read
like a whole one.
-/

namespace LineStore.Client

/-- How a peer in a state of type `σ` answers the octets that are sent to it: with these octets, before
it waits for more or ends its side. -/
abbrev Peer (σ : Type) := Bytes → σ → Bytes × σ

/-- A connection to a peer. -/
structure Link (σ : Type) where
  peer : σ
  /-- What the peer has written and the client has not read. -/
  unread : Bytes := []

/-- The text of a line without the line feeds and carriage returns at its end. -/
def trimLineEnd (text : String) : String :=
  String.ofList (text.toList.reverse.dropWhile fun c => c = '\n' ∨ c = '\r').reverse

/-- The next line of a stream that has ended, and the rest of the stream. A line that is no text is read
all the same. -/
def readLine (stream : Bytes) : Except Failure String × Bytes :=
  let (line, rest) := stream.cutLine?.getD (stream, [])
  if line = [] then (.error .closed, rest)
  else
    match Utf8.decode? line with
    | some text => (.ok (trimLineEnd text), rest)
    | none => (.error (.network .malformedText), rest)

namespace Link

variable {σ : Type}

/-- Sends octets and takes in what the peer answers. -/
def send (peer : Peer σ) (octets : Bytes) (link : Link σ) : Link σ :=
  let (answer, state) := peer octets link.peer
  { peer := state, unread := link.unread ++ answer }

/-- Makes a call. One that fails its checks sends nothing and reads nothing. -/
def call (peer : Peer σ) (call : Call) (link : Link σ) : Except Failure Answer × Link σ :=
  match call.line with
  | .error failure => (.error failure, link)
  | .ok line =>
    let link := link.send peer (Utf8.encode line ++ [lineFeed])
    let (read, unread) := readLine link.unread
    (read.bind call.interpret, { link with unread })

def callAll (peer : Peer σ) : List Call → Link σ → List (Except Failure Answer) × Link σ
  | [], link => ([], link)
  | call :: rest, link =>
    let (answer, link) := link.call peer call
    let (answers, link) := callAll peer rest link
    (answer :: answers, link)

/-- Asks to be disconnected, and reads until the peer ends its side. -/
def disconnect (peer : Peer σ) (link : Link σ) : Link σ :=
  { link.send peer [lineFeed] with unread := [] }

end Link

end LineStore.Client
