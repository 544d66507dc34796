import LineStore.Network.Ipv4

/-!
Numbers of machines with 128 bits, and how they are written: as groups of hexadecimal digits with colons
between them, where two colons in a row stand for groups of zero.
-/

namespace LineStore.Network

/-- A machine's number of 128 bits: eight groups of 16. -/
structure Ipv6 where
  groups : List UInt16
  length_groups : groups.length = 8 := by decide
deriving DecidableEq, Repr

namespace Ipv6

/-! ## What a number stands for -/

/-- The machine itself, as it is called on every machine. -/
def loopback : Ipv6 := { groups := [0, 0, 0, 0, 0, 0, 0, 1] }

/-- The number that stands for all numbers of a machine. -/
def any : Ipv6 := { groups := [0, 0, 0, 0, 0, 0, 0, 0] }

/-- The number of 32 bits that a number stands for: it comes last, after five groups of zero and one of
ones. -/
def mapped? (number : Ipv6) : Option Ipv4 :=
  match number.groups.drop 6 with
  | [high, low] =>
    if number.groups.take 6 = [0, 0, 0, 0, 0, 0xFFFF] then
      some { bits := high.toUInt32 <<< 16 ||| low.toUInt32 }
    else none
  | _ => none

/-- Whether a number tells machines apart on one link only. -/
def isLinkLocal (number : Ipv6) : Bool :=
  number.groups.headD 0 &&& 0xFFC0 = 0xFE80

/-- Whether a number names a group of machines on one interface or one link. -/
def isLocalGroup (number : Ipv6) : Bool :=
  let reach := number.groups.headD 0 &&& 0xFF0F
  reach = 0xFF01 || reach = 0xFF02

/-! ## Writing -/

def textOfGroups (groups : List UInt16) : String :=
  ":".intercalate (groups.map fun group => String.ofList (Nat.toDigits 16 group.toNat))

/-- Where the longest run of zeros begins, and how long it is. Of runs of one length the first counts. -/
def longestGap : List UInt16 → Nat × Nat
  | [] => (0, 0)
  | group :: rest =>
    let here := ((group :: rest).takeWhile (· = 0)).length
    let (start, length) := longestGap rest
    if length ≤ here then (0, here) else (start + 1, length)

/-- The text of a number: two colons replace the longest run of zeros, if it has more than one group, and
a number of 32 bits is written as such. -/
def text (number : Ipv6) : String :=
  match number.mapped? with
  | some short => "::ffff:" ++ short.text
  | none =>
    let (start, length) := longestGap number.groups
    if 1 < length then
      textOfGroups (number.groups.take start) ++ "::"
        ++ textOfGroups (number.groups.drop (start + length))
    else textOfGroups number.groups

/-! ## Reading -/

def group? (text : List Char) : Option UInt16 :=
  if text.length ≤ 4 then (Text.digitsIn? 16 text).map UInt16.ofNat else none

/-- The two groups of a number of 32 bits. -/
def groupsOf (short : Ipv4) : List UInt16 :=
  [(short.bits >>> 16).toUInt16, short.bits.toUInt16]

/-- The groups of some parts. The last part may be a number of 32 bits, in four octets, if `short`. -/
def groupsOfParts? (short : Bool) : List (List Char) → Option (List UInt16)
  | [] => some []
  | [part] =>
    if short && part.contains '.' then (Ipv4.ofOctets? part).map groupsOf
    else (group? part).map fun group => [group]
  | part :: rest => do return (← group? part) :: (← groupsOfParts? short rest)

/-- The groups of a text, which may be none. -/
def groups? (short : Bool) (text : List Char) : Option (List UInt16) :=
  if text.isEmpty then some [] else groupsOfParts? short (text.splitOn ':')

/-- What stands before and after the first two colons in a row. -/
def splitAtGap? : List Char → Option (List Char × List Char)
  | ':' :: ':' :: rest => some ([], rest)
  | c :: rest => (splitAtGap? rest).map fun (before, after) => (c :: before, after)
  | [] => none

/-- All groups of a text. Two colons in a row stand for at least one group. -/
def allGroups? (text : List Char) : Option (List UInt16) :=
  match splitAtGap? text with
  | none => groups? true text
  | some (before, after) => do
    let before ← groups? false before
    let after ← groups? true after
    match 8 - (before.length + after.length) with
    | 0 => none
    | missing => return before ++ List.replicate missing 0 ++ after

def ofText? (text : List Char) : Option Ipv6 := do
  let groups ← allGroups? text
  if h : groups.length = 8 then return { groups, length_groups := h } else none

end Ipv6

end LineStore.Network
