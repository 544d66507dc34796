import LineStore.Network.Ipv6

/-!
Machines, by their numbers of either length.
-/

namespace LineStore.Network

/-- The number of a machine. -/
inductive Machine where
  | v4 (number : Ipv4)
  /-- The index of the interface that leads to the machine's link is zero if none was named. -/
  | v6 (number : Ipv6) (interface : UInt32)
deriving DecidableEq, Repr

namespace Machine

def text : Machine → String
  | v4 number => number.text
  | v6 number _ => number.text

/-- The machine with a number of 32 bits, where one of 128 bits stands for it. -/
def shortened : Machine → Machine
  | v4 number => v4 number
  | v6 number interface =>
    match number.mapped? with
    | some short => v4 short
    | none => v6 number interface

/-- The machine itself, as it is called on every machine. -/
def loopback : Machine := v4 .loopback

/-- Whether a number is one of those by which every machine calls itself. -/
def isLoopback (machine : Machine) : Bool :=
  match machine.shortened with
  | v4 number => number.isLoopback
  | v6 number _ => number = .loopback

/-- Whether a number stands for all numbers of a machine. -/
def isAny (machine : Machine) : Bool :=
  match machine.shortened with
  | v4 number => number = .any
  | v6 number _ => number = .any

/-- Whether a number holds on one link only, and it is not said on which. -/
def lacksLink : Machine → Bool
  | v4 _ => false
  | v6 number interface => number.isLinkLocal && interface = 0

end Machine

end LineStore.Network
