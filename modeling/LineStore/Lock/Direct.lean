import LineStore.Lock.Crowd

/-!
What a lock grants, said directly.

There is no waking and no looking again here: after each request the threads that can go on go on at
once. A writer outside the queue takes a free place in it. Then, unless a writer is active, all announced
readers go on together, or, if no reader is announced, the writer at the head of the queue does.
-/

namespace LineStore.Lock

/-- Where a thread stands with a lock, tickets apart. -/
inductive Standing where
  | away
  | announced
  | reading
  /-- It waits for a place in the queue. -/
  | outside
  | queued
  | writing
deriving DecidableEq, Repr

/-- The standing of a thread at a stage. -/
def Standing.ofStage : Stage → Standing
  | .away => .away
  | .awaitingRead => .announced
  | .reading => .reading
  | .awaitingSlot => .outside
  | .awaitingTurn _ => .queued
  | .writing _ => .writing

/-- How all threads stand with a lock. -/
structure Direct where
  capacity : Nat
  standings : List Standing
  /-- The threads in the queue, the active writer included, oldest first. -/
  queue : List Nat := []
deriving DecidableEq, Repr

namespace Direct

/-- How the threads of a crowd stand with its lock. -/
def ofCrowd (crowd : Crowd) : Direct where
  capacity := crowd.capacity
  standings := crowd.members.map fun member => .ofStage member.stage
  queue := crowd.lock.ring.filterMap fun ticket =>
    crowd.members.findIdx? fun member => member.stage.ticket? = some ticket

def place (direct : Direct) (thread : Nat) (standing : Standing) : Direct :=
  { direct with standings := direct.standings.set thread standing }

/-- Lets a thread outside into the queue, if there is room. -/
def enqueue (direct : Direct) (thread : Nat) : Direct :=
  if direct.standings[thread]? = some .outside ∧ direct.queue.length < direct.capacity then
    { direct.place thread .queued with queue := direct.queue ++ [thread] }
  else direct

/-- Lets the threads outside into the queue, as far as there is room. -/
def enqueueAll (direct : Direct) : Direct :=
  (List.range direct.standings.length).foldl enqueue direct

/-- Lets the readers that are announced go on. -/
def grantReaders (direct : Direct) : Direct :=
  { direct with
    standings := direct.standings.map fun standing =>
      if standing = .announced then .reading else standing }

def grant (direct : Direct) : Direct :=
  if .writing ∈ direct.standings then direct
  else if .announced ∈ direct.standings ∨ .reading ∈ direct.standings then direct.grantReaders
  else
    match direct.queue.head? with
    | some thread => direct.place thread .writing
    | none => direct

/-- A thread asks for the lock, or gives it up. Nothing else can be asked, and a thread that holds the
lock or waits for it cannot ask for it. -/
def request (direct : Direct) : Action → Option Direct
  | .acquire thread access =>
    if direct.standings[thread]? = some .away then
      match access with
      | .read => some (direct.place thread .announced)
      | .write => some (direct.place thread .outside)
    else none
  | .release thread =>
    match direct.standings[thread]? with
    | some .reading => some (direct.place thread .away)
    | some .writing => some { direct.place thread .away with queue := direct.queue.tail }
    | _ => none
  | _ => none

/-- A request and all that follows from it. -/
def perform (direct : Direct) (action : Action) : Option Direct :=
  (direct.request action).map fun direct => direct.enqueueAll.grant

/-- What can be told of the lock from outside. -/
def occupancy (direct : Direct) : Occupancy where
  readersPresent := direct.standings.countP fun standing => standing = .announced ∨ standing = .reading
  writersActive := direct.standings.count .writing
  queuedWriters := direct.queue.length

end Direct

end LineStore.Lock
