import LineStore.Fault
import LineStore.Span

/-!
The state of a fair reader-writer lock and the segments that threads run on it.

A writer draws a ticket and joins a ring of bounded length; only the ticket at the head may take the
lock. A reader is counted before it waits, and this count both keeps writers out and tells a writer
that leaves whom to wake first. What a thread does between two waits is one segment: a function of the
state, run by one thread at a time.
-/

namespace LineStore.Lock

/-- A writer's number in the queue. Numbers wrap around. -/
abbrev Ticket := UInt64

/-- How a lock is built. -/
structure Options where
  /-- How many writers may queue, the active one included. -/
  ringCapacity : Nat
  /-- How long every release is held up. -/
  releaseDelay : Span := {}
deriving DecidableEq, Repr

/-- The least number of tickets for which there is no room in memory. -/
def unallocatable : Nat := 0x1000000000000000

/-- Accepts the options of a lock that can be built. -/
def Options.check (options : Options) : Except Fault Unit :=
  if options.ringCapacity = 0 then .error .invalidInput
  else if unallocatable ≤ options.ringCapacity then .error .outOfMemory
  else .ok ()

/-- What a lock remembers. -/
structure State where
  /-- Readers that have announced themselves and not left. -/
  readersPresent : Nat := 0
  /-- `1` while a writer has the lock. -/
  writersActive : Nat := 0
  /-- The tickets of the queued writers and of the active one, oldest first. -/
  ring : List Ticket := []
  nextTicket : Ticket := 0
  /-- Writers that wait for room in the ring. -/
  slotWaiters : Nat := 0
deriving DecidableEq, Repr

/-- What can be told of a lock from outside. -/
structure Occupancy where
  readersPresent : Nat := 0
  writersActive : Nat := 0
  queuedWriters : Nat := 0
deriving DecidableEq, Repr

/-- The ways to hold a lock. -/
inductive Access where
  | read
  | write
deriving DecidableEq, Repr

/-- Where a thread stands with a lock. -/
inductive Stage where
  | away
  /-- It is announced and waits until no writer is active. -/
  | awaitingRead
  | reading
  /-- It waits for room in the ring. -/
  | awaitingSlot
  | awaitingTurn (ticket : Ticket)
  | writing (ticket : Ticket)
deriving DecidableEq, Repr

/-- Whether a thread at this stage has the lock. -/
def Stage.holds : Stage → Bool
  | reading | writing _ => true
  | _ => false

/-- Whether a thread at this stage holds write access. -/
def Stage.writes : Stage → Bool
  | writing _ => true
  | _ => false

/-- Whether a thread at this stage waits for the lock. -/
def Stage.waits : Stage → Bool
  | awaitingRead | awaitingSlot | awaitingTurn _ => true
  | _ => false

/-- The ticket of a thread at this stage, if it has drawn one. -/
def Stage.ticket? : Stage → Option Ticket
  | awaitingTurn ticket | writing ticket => some ticket
  | _ => none

/-- Whom a segment wakes: all waiting readers, all waiting writers. -/
structure Wakes where
  readers : Bool := false
  writers : Bool := false
deriving DecidableEq, Repr

/-- Whether a thread that waits at this stage is among those woken. -/
def Wakes.reaches (wakes : Wakes) : Stage → Bool
  | .awaitingRead => wakes.readers
  | .awaitingSlot | .awaitingTurn _ => wakes.writers
  | _ => false

namespace State

/-- The occupancy of a lock in this state. -/
def occupancy (state : State) : Occupancy where
  readersPresent := state.readersPresent
  writersActive := state.writersActive
  queuedWriters := state.ring.length

/-! ### Segments -/

/-- An announced reader looks whether it may go on. -/
def retryRead (state : State) : State × Stage :=
  if state.writersActive ≠ 0 then (state, .awaitingRead) else (state, .reading)

def enterRead (state : State) : State × Stage :=
  retryRead { state with readersPresent := state.readersPresent + 1 }

/-- A writer with a ticket looks whether its turn has come. -/
def retryTurn (ticket : Ticket) (state : State) : State × Stage :=
  if state.ring.head? ≠ some ticket ∨ 0 < state.readersPresent then (state, .awaitingTurn ticket)
  else ({ state with writersActive := 1 }, .writing ticket)

/-- A writer arrives: it draws a ticket if there is room for it. -/
def enterWrite (capacity : Nat) (state : State) : State × Stage :=
  if capacity ≤ state.ring.length then
    ({ state with slotWaiters := state.slotWaiters + 1 }, .awaitingSlot)
  else
    retryTurn state.nextTicket
      { state with
        nextTicket := state.nextTicket + 1
        ring := state.ring ++ [state.nextTicket] }

/-- A writer that waited for room looks again. -/
def retrySlot (capacity : Nat) (state : State) : State × Stage :=
  enterWrite capacity { state with slotWaiters := state.slotWaiters - 1 }

/-- The first segment of a thread that wants the lock. -/
def enter (capacity : Nat) : Access → State → State × Stage
  | .read, state => state.enterRead
  | .write, state => state.enterWrite capacity

/-- The segment of a thread that was woken at this stage. -/
def retry (capacity : Nat) : Stage → State → State × Stage
  | .awaitingRead, state => state.retryRead
  | .awaitingSlot, state => state.retrySlot capacity
  | .awaitingTurn ticket, state => state.retryTurn ticket
  | stage, state => (state, stage)

/-- A reader leaves. The last one calls the writers. -/
def leaveRead (state : State) : State × Wakes :=
  let readersPresent := state.readersPresent - 1
  ({ state with readersPresent },
    { writers := readersPresent = 0 ∧ state.ring ≠ [] })

/-- The active writer leaves. It calls the readers that are announced, or else the writers that are
queued, and in any case the writers that wait for the slot it frees. -/
def leaveWrite (state : State) : State × Wakes :=
  let ring := state.ring.tail
  ({ state with writersActive := 0, ring },
    { readers := 0 < state.readersPresent
      writers := (state.readersPresent = 0 ∧ ring ≠ []) ∨ 0 < state.slotWaiters })

/-- The segment of a thread that gives up what it holds at this stage. -/
def leave : Stage → State → State × Wakes
  | .reading, state => state.leaveRead
  | .writing _, state => state.leaveWrite
  | _, state => (state, {})

end State

def Occupancy.text (occupancy : Occupancy) : String :=
  s!"LockStats \x7b readers_present: {occupancy.readersPresent}, writers_active: " ++
    s!"{occupancy.writersActive}, queued_writers: {occupancy.queuedWriters} \x7d"

def State.text (capacity : Nat) (state : State) : String :=
  s!"RawFairLock \x7b stats: {state.occupancy.text}, ring_capacity: {capacity} \x7d"

end LineStore.Lock
