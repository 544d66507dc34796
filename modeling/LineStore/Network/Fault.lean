/-!
What can go wrong on the way to another machine, and on the way of octets to text.
-/

namespace LineStore.Network

/-- Why a call to the network failed. -/
inductive Fault where
  /-- An address without a port. -/
  | invalidAddress
  /-- A port that is no number of 16 bits. -/
  | invalidPort
  /-- A host with a NUL in its text. -/
  | nulInHost
  | unknownHost
  /-- A host that nobody could be asked about. -/
  | noNameService
  /-- A number that holds on one link only, without the interface that leads there. -/
  | noInterface
  /-- There is no way to the other machine. -/
  | unreachable
  | refused
  | malformedText
deriving DecidableEq, Repr

def Fault.message : Fault → String
  | invalidAddress => "invalid socket address"
  | invalidPort => "invalid port value"
  | nulInHost => "file name contained an unexpected NUL byte"
  | unknownHost => "failed to lookup address information: Name or service not known"
  | noNameService => "failed to lookup address information: Temporary failure in name resolution"
  | noInterface => "Invalid argument (os error 22)"
  | unreachable => "Network is unreachable (os error 101)"
  | refused => "Connection refused (os error 111)"
  | malformedText => "stream did not contain valid UTF-8"

end LineStore.Network
