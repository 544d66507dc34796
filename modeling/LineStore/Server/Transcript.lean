import LineStore.Server.Connection

/-!
What a client gets for the whole of its stream, line by line.

A transcript knows nothing of the pieces in which a stream arrives, of framers, or of what a worker meets
with on the way. It cuts the stream into lines and answers one after another.
-/

namespace LineStore.Server

/-- What a request is answered, and the store after it. -/
def carryOut (request : Request) (store : Store) : Reply × Store :=
  match request.operation? with
  | .ok operation =>
    let (outcome, store) := store.perform operation
    (.ofOutcome outcome, store)
  | .error _ => (.internalError, store)

/-- What a whole line is answered, its line feed included, and the store after it. -/
def answerLine (line : Bytes) (store : Store) : Reply × Store :=
  if line.length ≤ maxLineBytes then
    match Request.read line with
    | .request request => carryOut request store
    | _ => (.invalidCommand, store)
  else (.invalidCommand, store)

/-- The replies to a client, and the store after them. -/
structure Transcript where
  replies : List Reply
  store : Store
deriving DecidableEq, Repr

namespace Transcript

def ofLines : List Bytes → Store → Transcript
  | [], store => { replies := [], store }
  | line :: rest, store =>
    let (reply, store) := answerLine line store
    let later := ofLines rest store
    { later with replies := reply :: later.replies }

/-- The lines before the client asks to be disconnected. -/
def heard (stream : Bytes) : List Bytes :=
  stream.lines.1.takeWhile fun line => ¬ line.IsBareLine

/-- Whether a client asks to be disconnected. -/
def Closes (stream : Bytes) : Prop :=
  ∃ line ∈ stream.lines.1, line.IsBareLine

instance (stream : Bytes) : Decidable (Closes stream) :=
  inferInstanceAs (Decidable (∃ line ∈ stream.lines.1, line.IsBareLine))

/-- All that comes of a stream. What follows the last line is refused once it is too long for a line, and
has no answer otherwise. -/
def ofStream (stream : Bytes) (store : Store) : Transcript :=
  let answered := ofLines (heard stream) store
  if ¬ Closes stream ∧ maxLineBytes ≤ stream.lines.2.length then
    { answered with replies := answered.replies ++ [.invalidCommand] }
  else answered

end Transcript

end LineStore.Server
