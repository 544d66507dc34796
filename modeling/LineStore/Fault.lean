/-!
The causes for which the store, a lock or the reading of a reply gives up, with their stable numbers
and texts. Faults of the network and of the settings are in `LineStore.Server.Failure`.
-/

namespace LineStore

/-- Who is to blame for a fault. -/
inductive Fault.Category where
  /-- The caller passed something that can never work. -/
  | client
  /-- The machine could not give what was asked of it. -/
  | server
  /-- Two sides of a connection disagree on what was said. -/
  | protocol
deriving DecidableEq, Repr

/-- Why an operation was refused. -/
inductive Fault where
  /-- A size of zero where at least one is needed. -/
  | invalidInput
  | keyTooLong
  | outOfMemory
  /-- A request whose value does not go with its command. -/
  | malformedRequest
  /-- A reply that does not answer the command. -/
  | unexpectedResponse
deriving DecidableEq, Repr

namespace Fault

def Category.name : Category → String
  | client => "Client"
  | server => "Server"
  | protocol => "Protocol"

/-- All faults, in the order of their numbers. -/
def all : List Fault :=
  [invalidInput, keyTooLong, outOfMemory, malformedRequest, unexpectedResponse]

/-- The number of a fault. It stays the same for good, so that others can rely on it. -/
def code : Fault → Nat
  | invalidInput => 1
  | keyTooLong => 2
  | outOfMemory => 10
  | malformedRequest => 30
  | unexpectedResponse => 32

def category : Fault → Category
  | invalidInput | keyTooLong => .client
  | outOfMemory => .server
  | malformedRequest | unexpectedResponse => .protocol

def message : Fault → String
  | invalidInput => "invalid input"
  | keyTooLong => "key too long"
  | outOfMemory => "out of memory"
  | malformedRequest => "malformed request"
  | unexpectedResponse => "unexpected response"

end Fault

end LineStore
