import LineStore.Fault
import LineStore.Text.Utf8
import LineStore.Wire.Command

/-!
Replies and their one line of text.

A reply is decoded in the light of the command that it answers: a status that the command can receive
is that status, and any other text is a value if the command was a read, and no reply at all otherwise.
-/

namespace LineStore

/-- What the server answers. -/
inductive Reply where
  | invalidCommand
  | created
  | collision
  | notFound
  | updated
  | deleted
  /-- The store could not do its work. -/
  | internalError
  | value (text : String)
deriving DecidableEq, Repr

namespace Reply

/-- The text of a reply, without its line feed. -/
def text : Reply → String
  | invalidCommand => "INVALID CMD"
  | created => "CREATE OK"
  | collision => "COLLISION"
  | notFound => "NOT FOUND"
  | updated => "UPDATE OK"
  | deleted => "DELETE OK"
  | internalError => "INTERNAL ERR"
  | value text => text

/-- Whether the request of this reply counts as failed. -/
def isError : Reply → Bool
  | invalidCommand | internalError => true
  | _ => false

def encode (reply : Reply) : Bytes :=
  Utf8.encode reply.text ++ [lineFeed]

/-- The statuses that may answer a command. -/
def statuses : Command → List Reply
  | .create => [invalidCommand, internalError, created, collision]
  | .read => [invalidCommand, internalError, notFound]
  | .update => [invalidCommand, internalError, notFound, updated]
  | .delete => [invalidCommand, internalError, notFound, deleted]

/-- The reply that a line without its line feed stands for when it answers `command`. -/
def decode (command : Command) (line : String) : Except Fault Reply :=
  match (statuses command).find? (·.text = line) with
  | some status => .ok status
  | none => if command = .read then .ok (.value line) else .error .unexpectedResponse

end Reply

end LineStore
