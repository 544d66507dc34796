import LineStore.Wire.Limits

/-!
Frames: the units that a connection's octets are cut into.

`Frame.ofStream` is the meaning of a stream of octets, read off the whole of it. `LineStore.Wire.Framer`
cuts the same frames while the octets arrive.
-/

namespace LineStore

/-- A piece of a stream that gets one answer. -/
inductive Frame where
  /-- A whole line, its line feed included, of at most `maxLineBytes` octets. -/
  | line (bytes : Bytes)
  /-- A line of more octets than that. Its octets are lost. -/
  | overlong
deriving DecidableEq, Repr

namespace Frame

def ofLine (line : Bytes) : Frame :=
  if line.length ≤ maxLineBytes then .line line else .overlong

/-- The frame of the octets after the last line: they are reported once they cannot end in time. -/
def ofTail? (tail : Bytes) : Option Frame :=
  if tail.length < maxLineBytes then none else some .overlong

/-- The frames of a stream of which `bytes` has arrived. -/
def ofStream (bytes : Bytes) : List Frame :=
  let (lines, tail) := bytes.lines
  lines.map ofLine ++ (ofTail? tail).toList

end Frame

end LineStore
