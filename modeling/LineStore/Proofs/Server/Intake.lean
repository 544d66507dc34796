import LineStore.Proofs.Server.Sessions

/-!
How much a framer has to keep for a connection.

A worker takes in octets only when its framer has none left for a frame, and then not more than a line may have.
So what waits for a line feed stays below a line, and with a chunk on top of it below two. What a framer still
owes bounds how often it gives a frame before it refuses one.
-/

namespace LineStore

theorem Bytes.length_lines (bytes : Bytes) : bytes.lines.1.length = bytes.count lineFeed := by
  induction bytes with
  | nil => rfl
  | cons b bytes ih =>
    rw [lines, List.count_cons, ← ih]
    cases hlines : lines bytes with
    | mk ls tail =>
      by_cases hb : b = lineFeed
      · simp [hb]
      · cases ls <;> simp [hb]

theorem Frame.length_ofStream_le (bytes : Bytes) : (ofStream bytes).length ≤ bytes.count lineFeed + 1 := by
  have htail : (ofTail? bytes.lines.2).toList.length ≤ 1 := by
    rw [ofTail?]
    split <;> simp
  have hlines := bytes.length_lines
  simp only [ofStream, List.length_append, List.length_map]
  omega

namespace Framer

theorem length_owed_le (framer : Framer) : framer.owed.length ≤ framer.pending.count lineFeed + 1 := by
  rw [owed]
  split
  · split
    · rename_i line rest hcut
      have hrest := Frame.length_ofStream_le rest
      rw [← Bytes.append_of_cutLine?_eq_some hcut, List.count_append]
      omega
    · exact Nat.zero_le _
  · exact Frame.length_ofStream_le _

/-! ### A framer and its feeder -/

/-- How far the feeder of a framer has come. -/
inductive Pace where
  /-- It has asked for frames until it was refused one, and nothing has arrived since. -/
  | drained
  /-- Octets have arrived. With them there were `feeds` line feeds to come to, and the framer has given a frame
  `calls` times since. -/
  | draining (feeds calls : Nat)
deriving DecidableEq, Repr

/-- What a framer and its feeder can come to. Octets are taken in when the framer has refused a frame, not more at
a time than a line may have, and then frames are asked for until it refuses one. -/
inductive Paced : Pace → Framer → Prop where
  | start : Paced .drained {}
  | push {framer : Framer} (chunk : Bytes) : Paced .drained framer → chunk.length ≤ maxLineBytes →
      Paced (.draining ((framer.push chunk).pending.count lineFeed) 0) (framer.push chunk)
  | give {feeds calls : Nat} {framer framer' : Framer} {frame : Frame} :
      Paced (.draining feeds calls) framer → framer.next = (some frame, framer') →
      Paced (.draining feeds (calls + 1)) framer'
  | refuse {feeds calls : Nat} {framer framer' : Framer} :
      Paced (.draining feeds calls) framer → framer.next = (none, framer') → Paced .drained framer'

/-- Whether a framer keeps less than a line, without a line feed, and nothing of a line that it skips. -/
structure Spent (framer : Framer) : Prop where
  length_lt : framer.pending.length < maxLineBytes
  no_feed : lineFeed ∉ framer.pending
  skipping : framer.skipping = true → framer.pending = []

theorem spent_of_cut {bytes : Bytes} {framer : Framer} (h : cut bytes = (none, framer)) : framer.Spent := by
  cases hcut : bytes.cutLine? with
  | some parts =>
    rw [cut_of_cutLine?_eq_some hcut] at h
    cases h
  | none =>
    simp only [cut, hcut] at h
    split at h
    · rename_i hshort
      cases h
      exact ⟨hshort, Bytes.cutLine?_eq_none_iff.1 hcut, fun hskip => by cases hskip⟩
    · cases h

theorem spent_of_next {framer framer' : Framer} (h : framer.next = (none, framer')) : framer'.Spent := by
  rw [next] at h
  split at h
  · split at h
    · exact spent_of_cut h
    · cases h
      exact ⟨by decide, List.not_mem_nil, fun _ => rfl⟩
  · exact spent_of_cut h

/-- The account of a framer at some pace. -/
def Pace.Holds : Pace → Framer → Prop
  | .drained, framer => framer.Spent
  | .draining feeds calls, framer =>
    framer.pending.length ≤ 2 * maxLineBytes - 1 ∧ calls + framer.owed.length ≤ feeds + 1

variable {pace : Pace} {framer : Framer}

theorem Spent.push (h : framer.Spent) {chunk : Bytes} (hchunk : chunk.length ≤ maxLineBytes) :
    (Pace.draining ((framer.push chunk).pending.count lineFeed) 0).Holds (framer.push chunk) := by
  have hlength := h.length_lt
  have howed := length_owed_le (framer.push chunk)
  refine ⟨?_, by omega⟩
  rw [Framer.push, List.length_append]
  omega

theorem Pace.Holds.give {feeds calls : Nat} (h : (Pace.draining feeds calls).Holds framer) {framer' : Framer}
    {frame : Frame} (hnext : framer.next = (some frame, framer')) :
    (Pace.draining feeds (calls + 1)).Holds framer' := by
  obtain ⟨hlength, hcalls⟩ := h
  -- the frame that is given is one that was owed
  have howed : framer.owed = frame :: framer'.owed := by
    simpa [hnext] using owed_push_next framer []
  have hshorter : framer'.pending.length ≤ framer.pending.length := by
    simpa [hnext] using length_pending_next_le framer
  rw [howed, List.length_cons] at hcalls
  exact ⟨Nat.le_trans hshorter hlength, by omega⟩

theorem Paced.holds (h : Paced pace framer) : pace.Holds framer := by
  induction h with
  | start => exact ⟨by decide, List.not_mem_nil, fun _ => rfl⟩
  | push chunk _ hchunk ih => exact ih.push hchunk
  | give _ hnext ih => exact ih.give hnext
  | refuse _ hnext _ => exact spent_of_next hnext

theorem Pace.Holds.length_le (h : pace.Holds framer) : framer.pending.length ≤ 2 * maxLineBytes - 1 := by
  cases pace with
  | drained =>
    have hlength := Spent.length_lt h
    omega
  | draining feeds calls => exact h.1

end Framer

/-! ### Workers -/

namespace Server.Worker

variable {σ : Type} {engine : Store.Engine σ} {latency : Span} {worker : Worker σ}

/-- Whether a worker feeds its framer as it may: it reads only when this has refused a frame. -/
def AtPace (worker : Worker σ) : Prop :=
  match worker.phase with
  | .checking | .reading | .waitingToRead => Framer.Paced .drained worker.framer
  | .framing | .writing _ | .stuck _ | .waitingToWrite _ =>
    ∃ feeds calls, Framer.Paced (.draining feeds calls) worker.framer
  | .over _ => ∃ pace, Framer.Paced pace worker.framer

theorem AtPace.takeFrame {feeds calls : Nat} (h : Framer.Paced (.draining feeds calls) worker.framer) :
    (worker.takeFrame engine latency).AtPace := by
  rw [Worker.takeFrame]
  cases hnext : worker.framer.next with
  | mk frame? framer =>
    cases frame? with
    | none => exact h.refuse hnext
    | some frame =>
      have hgive := h.give hnext
      simp only
      split
      · exact ⟨_, hgive⟩
      · split
        · exact ⟨_, _, hgive⟩
        · exact ⟨_, hgive⟩

theorem AtPace.write {rest : Bytes} (h : ∃ feeds calls, Framer.Paced (.draining feeds calls) worker.framer)
    (outcome : WriteOutcome) : (worker.write rest outcome).AtPace := by
  cases outcome with
  | accepted more => exact h
  | wouldBlock => exact h
  | interrupted => exact h
  | exhausted | failed =>
    obtain ⟨feeds, calls, hpaced⟩ := h
    exact ⟨_, hpaced⟩

theorem AtPace.step (h : worker.AtPace) {weather : Weather}
    (hread : ∀ bytes, weather.read = .chunk bytes → bytes.length ≤ maxLineBytes) :
    (worker.step engine latency weather).AtPace := by
  obtain ⟨responder, framer, phase, delivered, served, replies⟩ := worker
  obtain ⟨stopping, read, write, sleepless⟩ := weather
  cases phase with
  | checking =>
    cases stopping with
    | false => exact h
    | true => exact ⟨_, h⟩
  | reading =>
    cases read with
    | chunk bytes => exact ⟨_, _, Framer.Paced.push bytes h (hread bytes rfl)⟩
    | ended | failed => exact ⟨_, h⟩
    | wouldBlock | interrupted => exact h
  | waitingToRead =>
    cases sleepless with
    | false => exact h
    | true => exact ⟨_, h⟩
  | framing =>
    obtain ⟨feeds, calls, hpaced⟩ := h
    exact AtPace.takeFrame hpaced
  | writing rest =>
    cases rest with
    | nil => exact h
    | cons b rest => exact AtPace.write h write
  | stuck rest =>
    obtain ⟨feeds, calls, hpaced⟩ := h
    cases stopping with
    | false => exact ⟨_, _, hpaced⟩
    | true => exact ⟨_, hpaced⟩
  | waitingToWrite rest =>
    obtain ⟨feeds, calls, hpaced⟩ := h
    cases sleepless with
    | false => exact ⟨_, _, hpaced⟩
    | true => exact ⟨_, hpaced⟩
  | «over» ending => exact h

theorem AtPace.run (h : worker.AtPace) {weathers : List Weather}
    (hread : ∀ weather ∈ weathers, ∀ bytes, weather.read = .chunk bytes → bytes.length ≤ maxLineBytes) :
    (worker.run engine latency weathers).AtPace := by
  induction weathers generalizing worker with
  | nil => exact h
  | cons weather weathers ih =>
    exact ih (h.step (hread weather List.mem_cons_self)) fun other hother =>
      hread other (List.mem_cons_of_mem _ hother)

/-- A framer that is fed at this pace keeps less than two lines at any time, and when it has been drained less than
one, without a line feed, and nothing of a line that it skips. To drain it takes at most one call for each line
feed that there was to come to, one for octets that are too many without one, and one that is refused: those that
are still to be made are one more than the frames that it gives. A worker feeds its framer so, whatever it meets
with, if no chunk that it reads is longer than a line. -/
theorem intake_bounded :
    (∀ pace framer, Framer.Paced pace framer →
      framer.pending.length ≤ 2 * maxLineBytes - 1 ∧
        (pace = .drained → framer.pending.length < maxLineBytes ∧ lineFeed ∉ framer.pending ∧
          (framer.skipping = true → framer.pending = [])) ∧
        ∀ feeds calls, pace = .draining feeds calls →
          calls + (framer.drain.1.length + 1) ≤ feeds + 2) ∧
      ∀ (σ : Type) (engine : Store.Engine σ) (latency : Span) (responder : Responder σ)
        (weathers : List Weather),
        (∀ weather ∈ weathers, ∀ bytes, weather.read = .chunk bytes → bytes.length ≤ maxLineBytes) →
          (Worker.run engine latency weathers { responder }).AtPace := by
  refine ⟨fun pace framer hpaced => ⟨hpaced.holds.length_le, ?_, ?_⟩, ?_⟩
  · rintro rfl
    have hspent : framer.Spent := hpaced.holds
    exact ⟨hspent.length_lt, hspent.no_feed, hspent.skipping⟩
  · rintro feeds calls rfl
    have hcalls := hpaced.holds.2
    rw [framer.drain_spec.1]
    omega
  · intro σ engine latency responder weathers hread
    have hstart : AtPace { responder } := Framer.Paced.start
    exact hstart.run hread

/-- A line that lacks its last octet waits, and as many octets as a line may have come on top of it. -/
theorem intake_bounded_full :
    ∃ full : Framer, Framer.Paced (.draining 0 0) full ∧ full.pending.length = 2 * maxLineBytes - 1 ∧
      full.pending.length ≤ 2 * maxLineBytes - 1 ∧ 0 + (full.drain.1.length + 1) ≤ 0 + 2 ∧
      full.next = (some .overlong, { skipping := true }) ∧
      Framer.Paced .drained { skipping := true } ∧
      (0 < maxLineBytes ∧ lineFeed ∉ ({ skipping := true } : Framer).pending ∧
        ({ skipping := true } : Framer).pending = []) ∧
      ∀ responder : Responder Store,
        (Worker.run Store.engine {} [{}, { read := .chunk (Utf8.encode "READ k\n") }, {}]
          { responder }).AtPace := by
  obtain ⟨start, hstart, hfeed⟩ : ∃ start : Bytes, start.length = maxLineBytes - 1 ∧ lineFeed ∉ start :=
    ⟨List.replicate (maxLineBytes - 1) 120, List.length_replicate, by simp [lineFeed]⟩
  have hlength : (start ++ 120 :: start).length = 2 * maxLineBytes - 1 := by
    rw [List.length_append, List.length_cons, hstart]
    rfl
  have hnone : lineFeed ∉ start ++ 120 :: start := by
    have hother : lineFeed ≠ 120 := by decide
    simp [hfeed, hother]
  have hwait : ({ pending := start } : Framer).next = (none, { pending := start }) := by
    simp [Framer.next, Framer.cut, Bytes.cutLine?_eq_none_iff.2 hfeed, hstart, maxLineBytes]
  have hreport : ({ pending := start ++ 120 :: start } : Framer).next =
      (some .overlong, { skipping := true }) := by
    simp [Framer.next, Framer.cut, Bytes.cutLine?_eq_none_iff.2 hnone, hlength, maxLineBytes]
  have hfirst := Framer.Paced.push start .start (by omega)
  simp only [Framer.push, List.nil_append, List.count_eq_zero.2 hfeed] at hfirst
  have hfull := (hfirst.refuse hwait).push (120 :: start) (by rw [List.length_cons, hstart]; decide)
  simp only [Framer.push, List.count_eq_zero.2 hnone] at hfull
  have hdry : Framer.Paced .drained { skipping := true } := (hfull.give hreport).refuse rfl
  obtain ⟨hmost, -, hcalls⟩ := intake_bounded.1 _ _ hfull
  obtain ⟨hless, hclean, hempty⟩ := (intake_bounded.1 _ _ hdry).2.1 rfl
  refine ⟨_, hfull, hlength, hmost, hcalls 0 0 rfl, hreport, hdry, ⟨hless, hclean, hempty rfl⟩,
    fun responder => intake_bounded.2 Store Store.engine {} responder _ ?_⟩
  intro weather hweather bytes hread
  simp only [List.mem_cons, List.not_mem_nil, or_false] at hweather
  rcases hweather with rfl | rfl | rfl
  · cases hread
  · cases hread
    decide
  · cases hread

end Server.Worker

end LineStore
