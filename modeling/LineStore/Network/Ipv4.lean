import LineStore.Text.Numeral

/-!
Numbers of machines with 32 bits, and how they are written: as four octets with points between them, or
with fewer parts, the last of which stands for all octets that are left.
-/

namespace LineStore.Network

/-- A machine's number of 32 bits. -/
structure Ipv4 where
  bits : UInt32
deriving DecidableEq, Repr

namespace Ipv4

/-- The four octets of a number, the leading one first. -/
def octets (number : Ipv4) : List Nat :=
  [24, 16, 8, 0].map fun shift => (number.bits.toNat >>> shift) % 256

/-- The octets in decimal, with points between them. -/
def text (number : Ipv4) : String :=
  ".".intercalate (number.octets.map fun octet => toString octet)

/-- The value of parts that fill some octets: each part is one octet, and the last one is all that are
left. -/
def fill? : Nat → List Nat → Option Nat
  | room + 1, [part] => if part < 1 <<< (8 * (room + 1)) then some part else none
  | room + 1, part :: rest =>
    if part < 256 then (fill? room rest).map (part <<< (8 * room) + ·) else none
  | _, _ => none

/-- The number of parts that fill four octets. -/
def ofParts? (parts : List Nat) : Option Ipv4 :=
  (fill? 4 parts).map fun value => { bits := UInt32.ofNat value }

/-- The number that a text names: one to four parts with points between them, each in decimal, octal or
hexadecimal. -/
def ofText? (text : List Char) : Option Ipv4 := do
  ofParts? (← (text.splitOn '.').mapM Text.markedDigits?)

/-- An octet in decimal, without zeros that it does not need. -/
def octet? (text : List Char) : Option Nat :=
  if text.head? = some '0' ∧ text.length ≠ 1 then none else (Text.digits? text).filter (· < 256)

def ofOctets? (text : List Char) : Option Ipv4 := do
  let octets ← (text.splitOn '.').mapM octet?
  if octets.length = 4 then ofParts? octets else none

/-- Whether a number is one of those by which every machine calls itself. -/
def isLoopback (number : Ipv4) : Bool :=
  number.octets.head? = some 127

/-- The machine itself, as it is called on every machine. -/
def loopback : Ipv4 := { bits := 0x7F000001 }

/-- The number that stands for all numbers of a machine. -/
def any : Ipv4 := { bits := 0 }

example : fill? 4 [127, 1] = some 0x7F000001 := by decide

example : fill? 4 [198, 51, 25607] = some 0xC6336407 := by decide

example : fill? 4 [256, 0, 0, 1] = none ∧ fill? 4 [127, 0, 0, 256] = none := by decide

end Ipv4

end LineStore.Network
