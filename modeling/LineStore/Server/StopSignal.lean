/-!
Stop signals: requests to stop that are made once and stay made.

A signal is shared through handles. Raising it through one handle is seen through every handle to it.
-/

namespace LineStore.Server

/-- Handles to stop signals, and what is known of the signals. -/
structure StopSignals where
  /-- For each handle, the place of its signal. -/
  handles : List Nat := [0]
  /-- For each signal, whether it has been raised. -/
  raised : List Bool := [false]
deriving DecidableEq, Repr

namespace StopSignals

/-- Whether the signal of a handle has been raised. -/
def isRaised (signals : StopSignals) (handle : Nat) : Bool :=
  (signals.handles[handle]?.bind (signals.raised[·]?)).getD false

/-- Adds a signal and a handle to it. -/
def new (signals : StopSignals) : StopSignals where
  handles := signals.handles ++ [signals.raised.length]
  raised := signals.raised ++ [false]

/-- Adds a handle to the signal of another handle. -/
def clone (signals : StopSignals) (handle : Nat) : StopSignals :=
  { signals with handles := signals.handles ++ signals.handles[handle]?.toList }

def raise (signals : StopSignals) (handle : Nat) : StopSignals :=
  match signals.handles[handle]? with
  | some signal => { signals with raised := signals.raised.set signal true }
  | none => signals

def all (signals : StopSignals) : List Bool :=
  (List.range signals.handles.length).map signals.isRaised

def text (isRaised : Bool) : String :=
  s!"Shutdown \x7b requested: {isRaised} \x7d"

end StopSignals

end LineStore.Server
