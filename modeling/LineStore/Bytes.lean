/-!
Octet strings as they travel over a connection, and the lines in them.

A line ends with its first line feed, which belongs to it. `Bytes.cutLine?` takes the first line off
a string of octets; `Bytes.lines` cuts a whole string into its lines and the unfinished rest.
-/

namespace LineStore

abbrev Bytes := List UInt8

def lineFeed : UInt8 := 10

/-- The octet that may stand before the line feed and is then not part of the text of the line. -/
def carriageReturn : UInt8 := 13

namespace Bytes

/-- The first line, its line feed included, and what follows it. -/
def cutLine? : Bytes → Option (Bytes × Bytes)
  | [] => none
  | b :: rest =>
    if b = lineFeed then some ([b], rest)
    else (cutLine? rest).map fun cut => (b :: cut.1, cut.2)

/-- The lines in their order, each with its line feed, and the octets after the last of them. -/
def lines : Bytes → List Bytes × Bytes
  | [] => ([], [])
  | b :: rest =>
    let (ls, tail) := lines rest
    if b = lineFeed then ([b] :: ls, tail)
    else match ls with
      | [] => ([], b :: tail)
      | l :: ls => ((b :: l) :: ls, tail)

/-- The octets without one carriage return at their end. -/
def dropReturn (bytes : Bytes) : Bytes :=
  if bytes.getLast? = some carriageReturn then bytes.dropLast else bytes

theorem append_of_cutLine?_eq_some {bytes line rest : Bytes}
    (h : bytes.cutLine? = some (line, rest)) : line ++ rest = bytes := by
  induction bytes generalizing line rest with
  | nil => simp [cutLine?] at h
  | cons b bytes ih =>
    rw [cutLine?] at h
    split at h
    · cases h
      rfl
    · obtain ⟨cut, hcut, heq⟩ := Option.map_eq_some_iff.1 h
      cases heq
      simp [ih hcut]

theorem length_pos_of_cutLine?_eq_some {bytes line rest : Bytes}
    (h : bytes.cutLine? = some (line, rest)) : 0 < line.length := by
  cases bytes with
  | nil => simp [cutLine?] at h
  | cons b bytes =>
    rw [cutLine?] at h
    split at h
    · cases h
      simp
    · obtain ⟨cut, _, heq⟩ := Option.map_eq_some_iff.1 h
      cases heq
      simp

theorem length_lt_of_cutLine?_eq_some {bytes line rest : Bytes}
    (h : bytes.cutLine? = some (line, rest)) : rest.length < bytes.length := by
  have := length_pos_of_cutLine?_eq_some h
  rw [← append_of_cutLine?_eq_some h, List.length_append]
  omega

theorem cutLine?_eq_none_iff {bytes : Bytes} : bytes.cutLine? = none ↔ lineFeed ∉ bytes := by
  induction bytes with
  | nil => simp [cutLine?]
  | cons b bytes ih =>
    rw [cutLine?]
    by_cases hb : b = lineFeed
    · simp [hb]
    · simp [hb, ih, Ne.symm hb]

end Bytes

end LineStore
