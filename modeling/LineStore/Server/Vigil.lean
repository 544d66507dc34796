/-!
Workers that sleep, and what wakes them.

A worker that has nothing to do sleeps in its poller until an event is queued there: a source it has
registered became ready, or an alarm was raised. Events are dropped unread when it wakes, since it tries
again whatever it tried last and looks whether it is to stop.

An alarm raises the flag first and then wakes the registered workers one by one. Nobody can register
while it goes through them.
-/

namespace LineStore.Server

/-- What a worker tries to do. -/
inductive Effort where
  | accept
  | read
  | write
deriving DecidableEq, Repr

/-- Where a worker is, as far as sleep is concerned. -/
inductive Watch where
  | unregistered
  /-- It looks whether it is to stop, before this effort. -/
  | checking (effort : Effort)
  | trying (effort : Effort)
  /-- It could not write, and looks whether it is to stop. -/
  | stuck
  /-- It sleeps until there is an event. It last tried this, and would have had to wait. -/
  | asleep (effort : Effort)
  /-- It sleeps for a short time, after it failed to take on a connection. -/
  | dozing
  | gone
deriving DecidableEq, Repr

/-- The places to which an effort may lead that need not wait: it succeeded, was interrupted or failed. -/
def Effort.sequels : Effort → List Watch
  | accept => [.checking .read, .checking .accept, .dozing]
  | read => [.trying .write, .checking .read, .checking .accept, .gone]
  | write => [.trying .write, .checking .read, .checking .accept, .gone]

/-- A worker, its poller and its connection. -/
structure Station where
  watch : Watch := .unregistered
  event : Bool := false
  readable : Bool := false
  writable : Bool := false
deriving DecidableEq, Repr

namespace Station

/-- Whether a worker takes part in alarms and hears of connections that wait. -/
def isRegistered (station : Station) : Bool :=
  station.watch ≠ .unregistered

/-- Whether a worker has a connection, and hears of what happens to it. -/
def serves (station : Station) : Bool :=
  match station.watch with
  | .checking effort | .trying effort | .asleep effort => effort ≠ .accept
  | .stuck => true
  | _ => false

/-- Queues an event if `news`. -/
def notify (station : Station) (news : Bool) : Station :=
  { station with event := station.event || news }

end Station

/-- One call to stop. -/
inductive Alarm where
  | called
  | flagged
  /-- It goes through the registered workers, and these are left. -/
  | waking (left : List Nat)
  | returned
deriving DecidableEq, Repr

/-- Workers, alarms and what they share. -/
structure Vigil where
  stations : List Station
  alarms : List Alarm
  /-- Whether the server has been asked to stop. -/
  flag : Bool := false
  /-- Whether a connection waits to be taken on. -/
  callers : Bool := false
deriving DecidableEq, Repr

namespace Vigil

/-- What can happen. Workers and alarms are numbered. -/
inductive Event where
  | register (worker : Nat)
  | check (worker : Nat)
  /-- An effort that would have to wait. -/
  | balk (worker : Nat)
  /-- An effort that does not have to wait, and where it leads. -/
  | proceed (worker : Nat) (sequel : Watch)
  /-- A worker wakes because of an event, or for no reason. -/
  | wake (worker : Nat)
  /-- A worker cannot sleep, and gives up what it does. -/
  | fail (worker : Nat) (sequel : Watch)
  /-- Connections wait to be taken on, or no longer do. -/
  | callers (ready : Bool)
  /-- There is something to read, or there no longer is. -/
  | readable (worker : Nat) (ready : Bool)
  /-- There is room to write, or there no longer is. -/
  | writable (worker : Nat) (ready : Bool)
  | alarm (number : Nat)
deriving DecidableEq, Repr

/-- `workers` workers that have not registered, and `calls` calls to stop that have not begun. -/
def start (workers calls : Nat) : Vigil where
  stations := List.replicate workers {}
  alarms := List.replicate calls .called

/-- Whether an effort of a worker would have to wait. -/
def wouldWait (vigil : Vigil) (station : Station) : Effort → Bool
  | .accept => !vigil.callers
  | .read => !station.readable
  | .write => !station.writable

/-- Puts another station in the place of one. -/
def setStation (vigil : Vigil) (worker : Nat) (station : Station) : Vigil :=
  { vigil with stations := vigil.stations.set worker station }

/-- Whether an alarm goes through the registered workers. -/
def isWaking (vigil : Vigil) : Bool :=
  vigil.alarms.any fun alarm =>
    match alarm with
    | .waking _ => true
    | _ => false

def registered (vigil : Vigil) : List Nat :=
  (vigil.stations.zipIdx.filter fun numbered => numbered.1.isRegistered).map Prod.snd

/-- What a step of an alarm leads to. -/
def ring (vigil : Vigil) (number : Nat) : Option Vigil :=
  match vigil.alarms[number]? with
  | some .called => some { vigil with flag := true, alarms := vigil.alarms.set number .flagged }
  | some .flagged =>
    if vigil.isWaking then none
    else some { vigil with alarms := vigil.alarms.set number (.waking vigil.registered) }
  | some (.waking []) => some { vigil with alarms := vigil.alarms.set number .returned }
  | some (.waking (worker :: left)) =>
    some
      { vigil with
        stations := vigil.stations.modify worker fun station => station.notify true
        alarms := vigil.alarms.set number (.waking left) }
  | _ => none

/-- What a step of a worker at its station leads to. -/
def work (vigil : Vigil) (station : Station) : Event → Option Station
  | .register _ =>
    if station.watch = .unregistered ∧ ¬ vigil.isWaking then
      some { station with watch := .checking .accept }
    else none
  | .check _ =>
    match station.watch with
    | .checking .accept =>
      some { station with watch := if vigil.flag then .gone else .trying .accept }
    | .checking effort =>
      some { station with watch := if vigil.flag then .checking .accept else .trying effort }
    | .stuck =>
      some { station with watch := if vigil.flag then .checking .accept else .asleep .write }
    | _ => none
  | .balk _ =>
    match station.watch with
    | .trying effort =>
      if vigil.wouldWait station effort then
        some { station with watch := if effort = .write then .stuck else .asleep effort }
      else none
    | _ => none
  | .proceed _ sequel =>
    match station.watch with
    | .trying effort =>
      if sequel ∈ effort.sequels then some { station with watch := sequel } else none
    | _ => none
  | .wake _ =>
    match station.watch with
    | .asleep .write => some { station with watch := .trying .write, event := false }
    | .asleep effort => some { station with watch := .checking effort, event := false }
    | .dozing => some { station with watch := .checking .accept, event := false }
    | _ => none
  | .fail _ sequel =>
    match station.watch with
    | .asleep .accept | .dozing => if sequel = .gone then some { station with watch := sequel } else none
    | .asleep _ =>
      if sequel = .checking .accept then some { station with watch := sequel } else none
    | _ => none
  | .readable _ ready =>
    let station := station.notify (station.serves && ready && !station.readable)
    some { station with readable := ready }
  | .writable _ ready =>
    let station := station.notify (station.serves && ready && !station.writable)
    some { station with writable := ready }
  | _ => none

/-- The worker that an event is about, if it is about one. -/
def Event.worker? : Event → Option Nat
  | register worker | check worker | balk worker | proceed worker _ | wake worker | fail worker _
  | readable worker _ | writable worker _ => some worker
  | _ => none

/-- What an event leads to, or `none` if it cannot happen. -/
def act (vigil : Vigil) (event : Event) : Option Vigil :=
  match event with
  | .alarm number => vigil.ring number
  | .callers ready =>
    some
      { vigil with
        callers := ready
        stations := vigil.stations.map fun station =>
          station.notify (station.isRegistered && ready && !vigil.callers) }
  | event => do
    let worker ← event.worker?
    let station ← vigil.stations[worker]?
    let station ← vigil.work station event
    return vigil.setStation worker station

/-- The states that workers and alarms can come to. -/
inductive Reachable (workers calls : Nat) : Vigil → Prop where
  | start : Reachable workers calls (start workers calls)
  | step {before after : Vigil} {event : Event} : Reachable workers calls before →
      before.act event = some after → Reachable workers calls after

end Vigil

end LineStore.Server
