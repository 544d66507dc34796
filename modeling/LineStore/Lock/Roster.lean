import LineStore.Lock.Crowd

/-!
A lock shared by actors with names, and the list that it guards.

Actors ask for the lock and release it, and what follows of itself happens before the next request. A
writer adds its name to the guarded list as soon as it has the lock.
-/

namespace LineStore.Lock

/-- What an actor asks of a lock. -/
inductive Request where
  | acquire (access : Access)
  | release
deriving DecidableEq, Repr

/-- Named actors around a lock. The actor of a name is the thread numbered by its place in `names`. -/
structure Roster where
  names : List String
  crowd : Crowd
  /-- The guarded list: the writers, in the order in which they were granted the lock. -/
  journal : List String := []
deriving DecidableEq, Repr

/-- What a request led to. -/
structure Turn where
  blocked : List String
  granted : List String
  occupancy : Occupancy
deriving DecidableEq, Repr

namespace Roster

/-- A free lock and the actors of these names, in alphabetical order. -/
def ofNames? (options : Options) (names : List String) : Except Fault Roster := do
  options.check
  let names := (names.mergeSort (· ≤ ·)).eraseDups
  return { names, crowd := .ofSize options.ringCapacity names.length }

def namesOf (roster : Roster) (threads : List Nat) : List String :=
  threads.filterMap (roster.names[·]?)

/-- The threads that hold the lock now and did not before. -/
def grantedSince (before after : Crowd) : List Nat :=
  after.holders.filter (· ∉ before.holders)

/-- The roster with a new crowd. Each writer that got the lock adds its name to the journal. -/
def advance (roster : Roster) (after : Crowd) : Roster :=
  let arrived := after.writers.filter (· ∉ roster.crowd.writers)
  { roster with crowd := after, journal := roster.journal ++ roster.namesOf arrived }

/-- The action by which an actor makes a request. -/
def action? (roster : Roster) (name : String) (request : Request) : Option Action :=
  (roster.names.idxOf? name).map fun thread =>
    match request with
    | .acquire access => .acquire thread access
    | .release => .release thread

/-- Lets an actor make a request. It is refused (`none`) if the actor asks for the lock while it holds
it or waits for it, or releases what it does not hold. -/
def request (roster : Roster) (name : String) (request : Request) : Roster × Option Turn :=
  match (roster.action? name request).bind roster.crowd.perform with
  | none => (roster, none)
  | some after =>
    (roster.advance after,
      some
        { blocked := roster.namesOf after.waiting
          granted := roster.namesOf (grantedSince roster.crowd after)
          occupancy := after.lock.occupancy })

/-- The roster after up to `n` releases, each by the alphabetically first holder. -/
def drain : Nat → Roster → Roster
  | 0, roster => roster
  | n + 1, roster => drain n (roster.advance roster.crowd.releaseFirst)

/-- The roster after holders have released the lock until nobody holds it. One release for each actor
is enough. -/
def finish (roster : Roster) : Roster :=
  roster.drain roster.names.length

end Roster

end LineStore.Lock
