import LineStore.Network.Fault
import LineStore.Network.Machine

/-!
Addresses: the host and the port that a server listens on.
-/

namespace LineStore.Network

/-- A host, as an address names it. -/
inductive Host where
  /-- A text, by which the machine has to be looked up. -/
  | text (name : String)
  | number (machine : Machine)
deriving DecidableEq, Repr

/-- A host and a port. -/
structure Address where
  host : Host
  port : UInt16
deriving DecidableEq, Repr

/-- What stands before and after the last colon of a text. -/
def splitAtLastColon? (text : List Char) : Option (List Char × List Char) :=
  let backwards := text.reverse
  match backwards.dropWhile (· ≠ ':') with
  | [] => none
  | _ :: before => some (before.reverse, (backwards.takeWhile (· ≠ ':')).reverse)

def interfaceIndex? (text : List Char) : Option UInt32 :=
  ((Text.digits? text).filter (· < UInt32.size)).map UInt32.ofNat

/-- A number of 128 bits. A percent sign and the index of an interface may follow. -/
def numberOnLink? (text : List Char) : Option Machine := do
  let number ← Ipv6.ofText? (text.takeWhile (· ≠ '%'))
  match text.dropWhile (· ≠ '%') with
  | [] => return .v6 number 0
  | _ :: interface => return .v6 number (← interfaceIndex? interface)

namespace Address

/-- The address of a number of 128 bits in square brackets, with a port of digits alone. -/
def ofBracketed? : List Char → Option Address
  | '[' :: text => do
    let machine ← numberOnLink? (text.takeWhile (· ≠ ']'))
    match text.dropWhile (· ≠ ']') with
    | ']' :: ':' :: port =>
      let port ← (Text.digits? port).filter (· < UInt16.size)
      return { host := .number machine, port := UInt16.ofNat port }
    | _ => none
  | _ => none

/-- The address that a text names. What is no number in brackets ends before the last colon. -/
def ofText? (text : String) : Except Fault Address :=
  match ofBracketed? text.toList with
  | some address => .ok address
  | none =>
    match splitAtLastColon? text.toList with
    | none => .error .invalidAddress
    | some (host, port) =>
      match Text.numeral? UInt16.size port with
      | none => .error .invalidPort
      | some port => .ok { host := .text (String.ofList host), port := UInt16.ofNat port }

end Address

end LineStore.Network
