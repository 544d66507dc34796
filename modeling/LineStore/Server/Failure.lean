import LineStore.Fault
import LineStore.Network.Fault

/-!
Why a server does not start, or does not end well.
-/

namespace LineStore.Server

/-- The variables of the environment that change a setting. -/
inductive Variable where
  | address
  | workers
  | buckets
  | lockDelay
deriving DecidableEq, Repr

namespace Variable

/-- The variables, in the order in which they are looked at. -/
def all : List Variable := [address, workers, buckets, lockDelay]

/-- The name of a variable in the environment. -/
def name : Variable → String
  | address => "SKVS_ADDR"
  | workers => "SKVS_WORKERS"
  | buckets => "SKVS_BUCKETS"
  | lockDelay => "SKVS_LOCK_DELAY_MS"

end Variable

/-- The settings that may not be zero. -/
inductive Quantity where
  | workers
  | buckets
  | backlog
deriving DecidableEq, Repr

def Quantity.name : Quantity → String
  | workers => "workers"
  | buckets => "buckets"
  | backlog => "backlog"

/-- What is wrong with a setting. -/
inductive SettingFault where
  | notANumber (source : Variable) (text : String)
  | zero (quantity : Quantity)
deriving DecidableEq, Repr

/-- The text of a fault in the settings. -/
def SettingFault.message : SettingFault → String
  | notANumber source text => s!"{source.name}: '{text}' is not a valid number"
  | zero quantity => s!"{quantity.name} must be at least 1"

/-- Why a server failed. -/
inductive Failure where
  | network (fault : Network.Fault)
  | store (fault : Fault)
  /-- No machine of the address is this one. -/
  | unbindable (address : String)
  | setting (fault : SettingFault)
  | workerBroke (worker : Nat)
deriving DecidableEq, Repr

namespace Failure

def message : Failure → String
  | network fault => s!"I/O error: {fault.message}"
  | store fault => s!"engine error: {fault.message}"
  | unbindable address => s!"could not bind to any address for '{address}'"
  | setting fault => s!"invalid configuration: {fault.message}"
  | workerBroke worker => s!"worker {worker} panicked"

/-- The text of a failure and of what is behind it, outermost first. -/
def chain : Failure → List String
  | network fault => [(network fault).message, fault.message]
  | store fault => [(store fault).message, fault.message]
  | failure => [failure.message]

end Failure

end LineStore.Server
