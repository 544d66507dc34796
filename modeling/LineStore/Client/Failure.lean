import LineStore.Fault
import LineStore.Network.Fault
import LineStore.Text.Quoted

/-!
Why a call of a client fails.
-/

namespace LineStore.Client

/-- The parts of a request that a caller supplies. -/
inductive Part where
  | key
  | value
deriving DecidableEq, Repr

def Part.name : Part → String
  | key => "key"
  | value => "value"

/-- Why an argument cannot be sent. -/
inductive ArgumentFault where
  | empty (part : Part)
  /-- It would not be one word of one line. -/
  | blank (part : Part) (text : String)
  | severalLines
deriving DecidableEq, Repr

/-- The text of a fault in an argument. -/
def ArgumentFault.message : ArgumentFault → String
  | empty part => s!"{part.name} is empty"
  | blank part text => s!"{part.name} '{Text.Quoting.message.text text}' contains whitespace"
  | severalLines => "request must be a single line"

/-- Why a call failed. -/
inductive Failure where
  | network (fault : Network.Fault)
  /-- The protocol: a key that is too long, or a reply that does not answer the command. -/
  | protocol (fault : Fault)
  /-- The server closed the connection and gave no answer. -/
  | closed
  | argument (fault : ArgumentFault)
deriving DecidableEq, Repr

namespace Failure

def message : Failure → String
  | network fault => s!"I/O error: {fault.message}"
  | protocol fault => s!"protocol error: {fault.message}"
  | closed => "connection closed by server"
  | argument fault => s!"invalid argument: {fault.message}"

/-- The text of a failure and of what is behind it, outermost first. -/
def chain : Failure → List String
  | network fault => [(network fault).message, fault.message]
  | protocol fault => [(protocol fault).message, fault.message]
  | failure => [failure.message]

end Failure

end LineStore.Client
