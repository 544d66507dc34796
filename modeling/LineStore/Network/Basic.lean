import LineStore.Network.Address

/-!
Networks: what the machine that a program runs on answers to its calls.
-/

namespace LineStore

/-- The network as a machine sees it. -/
structure Network where
  /-- The hosts with names, which are written in small letters here. -/
  names : List (String × Network.Machine) := [("localhost", .loopback)]
  /-- The interfaces with their indices. -/
  interfaces : List (String × UInt32) := [("lo", 1)]
  /-- What becomes of a name that is not among them. -/
  unnamed : Network.Fault
  /-- Whether a server on this machine can take a number for its own. -/
  isOwn : Network.Machine → Bool
  /-- Whether a connection to a number finds its way. -/
  reaches : Network.Machine → Bool

namespace Network

/-- A machine on its own: it knows itself and can connect to itself. -/
def loopbackOnly : Network where
  unnamed := .unknownHost
  isOwn machine := machine.isLoopback || machine.isAny
  reaches := Machine.isLoopback

/-- A machine without any routes: every number of 32 bits can be taken, of the others only the one that
stands for all, and no connection can be made, not even to the machine itself. -/
def isolated : Network where
  unnamed := .noNameService
  isOwn machine :=
    match machine.shortened with
    | .v4 _ => true
    | .v6 number _ => number = .any
  reaches _ := false

/-- The interface that a text names. Numbers that hold on one link or interface take its name, and all
take its index. -/
def interface? (network : Network) (number : Ipv6) (text : List Char) : Option UInt32 :=
  let named? :=
    if number.isLinkLocal || number.isLocalGroup then network.interfaces.lookup (String.ofList text)
    else none
  named? <|> interfaceIndex? text

/-- The machine of a host that is named by its number, after which an interface may follow. -/
def numbered? (network : Network) (host : List Char) : Option (Except Fault Machine) :=
  match Ipv4.ofText? host with
  | some number => some (.ok (.v4 number))
  | none =>
    (Ipv6.ofText? (host.takeWhile (· ≠ '%'))).map fun number =>
      match host.dropWhile (· ≠ '%') with
      | [] => .ok (.v6 number 0)
      | _ :: text =>
        match network.interface? number text with
        | some interface => .ok (.v6 number interface)
        | none => .error .unknownHost

/-- The machine of a host by its text, which is a number or a name. An asterisk is the name of none. -/
def resolve (network : Network) (host : String) : Except Fault Machine :=
  if host.toList.contains '\x00' then .error .nulInHost
  else
    match network.numbered? host.toList with
    | some found => found
    | none =>
      if host = "*" then .error .unknownHost
      else
        match network.names.lookup host.toLower with
        | some machine => .ok machine
        | none => .error network.unnamed

def locate (network : Network) : Host → Except Fault Machine
  | .text name => network.resolve name
  | .number machine => .ok machine

/-- Connects to a machine. A server of ours listens there if `listening`. -/
def connect (network : Network) (machine : Machine) (listening : Bool) : Except Fault Unit :=
  if machine.lacksLink then .error .noInterface
  else if !network.reaches machine then .error .unreachable
  else if listening then .ok ()
  else .error .refused

end Network

end LineStore
