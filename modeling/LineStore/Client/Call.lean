import LineStore.Client.Failure
import LineStore.Wire.Limits
import LineStore.Wire.Reply

/-!
The calls of a client: what is checked before anything is sent, the line that is sent, and what a reply
to it means.
-/

namespace LineStore.Client

/-- One call. -/
inductive Call where
  | create (key value : String)
  | read (key : String)
  | update (key value : String)
  | delete (key : String)
  /-- A line of the caller's own, without its line feed. -/
  | request (line : String)
deriving DecidableEq, Repr

/-- What a call that succeeds gives back. -/
inductive Answer where
  | reply (reply : Reply)
  | line (text : String)
deriving DecidableEq, Repr

/-- Accepts a text that is one word of a line. -/
def checkWord (part : Part) (text : String) : Except Failure Unit :=
  if text.isEmpty then .error (.argument (.empty part))
  else if text.toList.any fun c => c = ' ' ∨ c = '\n' ∨ c = '\r' then
    .error (.argument (.blank part text))
  else .ok ()

/-- Accepts a key that a server could store. -/
def checkKey (key : String) : Except Failure Unit := do
  checkWord .key key
  if KeyFits key then return () else throw (.protocol .keyTooLong)

namespace Call

/-- The command of a call, if it has one. -/
def command? : Call → Option Command
  | create .. => some .create
  | read _ => some .read
  | update .. => some .update
  | delete _ => some .delete
  | request _ => none

/-- The line of a call, without its line feed, or why it is not sent. -/
def line : Call → Except Failure String
  | create key value => do
    checkKey key
    checkWord .value value
    return s!"{Command.create.name} {key} {value}"
  | read key => do
    checkKey key
    return s!"{Command.read.name} {key}"
  | update key value => do
    checkKey key
    checkWord .value value
    return s!"{Command.update.name} {key} {value}"
  | delete key => do
    checkKey key
    return s!"{Command.delete.name} {key}"
  | request line =>
    if '\n' ∈ line.toList then .error (.argument .severalLines) else .ok line

def interpret (call : Call) (line : String) : Except Failure Answer :=
  match call.command? with
  | some command => ((Reply.decode command line).map .reply).mapError .protocol
  | none => .ok (.line line)

end Call

end LineStore.Client
