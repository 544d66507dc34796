import LineStore.Wire.Frame

/-!
Cutting frames while octets arrive.

A framer keeps the octets of the line that has not ended. When these are too many it reports the line
at once, drops them, and skips what follows up to and including the next line feed. So an overlong line
is one frame, whether it was noticed before its line feed arrived or with it.
-/

namespace LineStore

/-- The octets that wait for their line feed, and whether the rest of a reported line is being skipped. -/
structure Framer where
  pending : Bytes := []
  skipping : Bool := false
deriving DecidableEq, Repr

namespace Framer

def push (framer : Framer) (bytes : Bytes) : Framer :=
  { framer with pending := framer.pending ++ bytes }

/-- The first frame of `bytes`, which start a line, and the framer after it. A line is too long if its line
feed stands beyond the first `maxLineBytes` octets. -/
def cut (bytes : Bytes) : Option Frame × Framer :=
  match bytes.cutLine? with
  | some (line, rest) =>
    if line.length - 1 < maxLineBytes then (some (.line line), { pending := rest })
    else (some .overlong, { pending := rest })
  | none =>
    if bytes.length < maxLineBytes then (none, { pending := bytes })
    else (some .overlong, { skipping := true })

/-- The next frame, or `none` if more octets have to arrive first. -/
def next (framer : Framer) : Option Frame × Framer :=
  if framer.skipping then
    match framer.pending.cutLine? with
    | some (_, rest) => cut rest
    | none => (none, { skipping := true })
  else cut framer.pending

/-- A line is cut into its frame, and what follows it is left. -/
theorem cut_of_cutLine?_eq_some {bytes line rest : Bytes} (h : bytes.cutLine? = some (line, rest)) :
    cut bytes = (some (.ofLine line), { pending := rest }) := by
  have hfits : line.length - 1 < maxLineBytes ↔ line.length ≤ maxLineBytes := by
    have : 0 < maxLineBytes := by decide
    omega
  simp only [cut, h, Frame.ofLine, hfits]
  split <;> rfl

theorem length_pending_cut_lt {bytes : Bytes} {frame : Frame}
    (h : (cut bytes).1 = some frame) : (cut bytes).2.pending.length < bytes.length := by
  cases hcut : bytes.cutLine? with
  | some parts =>
    rw [cut_of_cutLine?_eq_some hcut]
    exact Bytes.length_lt_of_cutLine?_eq_some hcut
  | none =>
    simp only [cut, hcut] at h ⊢
    split
    · simp_all
    · have : 0 < maxLineBytes := by decide
      simp only [List.length_nil]
      omega

/-- Each frame uses up octets, so a framer runs dry. -/
theorem length_pending_next_lt {framer : Framer} {frame : Frame}
    (h : framer.next.1 = some frame) : framer.next.2.pending.length < framer.pending.length := by
  by_cases hskip : framer.skipping
  · simp only [next, hskip, ↓reduceIte] at h ⊢
    cases hcut : framer.pending.cutLine? with
    | none => simp [hcut] at h
    | some parts =>
      simp only [hcut] at h ⊢
      exact Nat.lt_trans (length_pending_cut_lt h) (Bytes.length_lt_of_cutLine?_eq_some hcut)
  · simp only [next, hskip, Bool.false_eq_true, ↓reduceIte] at h ⊢
    exact length_pending_cut_lt h

/-- All frames that can be cut now, and the framer after them. -/
def drain (framer : Framer) : List Frame × Framer :=
  match hnext : framer.next.1 with
  | none => ([], framer.next.2)
  | some frame =>
    have := length_pending_next_lt hnext
    let (frames, last) := framer.next.2.drain
    (frame :: frames, last)
termination_by framer.pending.length

end Framer

end LineStore
