import LineStore.Proofs.Wire.Lines
import LineStore.Wire.Framer

/-!
A framer gives the frames of the stream that it has taken in, and nothing else.

`Framer.owed` is what a framer has still to give for the octets it has. However octets and requests for
a frame follow on each other, the frames given so far and those owed are together the frames of the
stream, and this stays so for whatever octets are still to come.
-/

namespace LineStore

/-- Whether a frame is a whole line that is not too long, if it is a line. -/
def Frame.Whole : Frame → Prop
  | .line bytes => ∃ body, bytes = body ++ [lineFeed] ∧ lineFeed ∉ body ∧ bytes.length ≤ maxLineBytes
  | .overlong => True

namespace Framer

/-- The frames that a framer has to give for the octets it has. -/
def owed (framer : Framer) : List Frame :=
  if framer.skipping then
    match framer.pending.cutLine? with
    | some (_, rest) => Frame.ofStream rest
    | none => []
  else Frame.ofStream framer.pending

@[simp] theorem push_nil (framer : Framer) : framer.push [] = framer := by
  simp only [push, List.append_nil]

theorem push_append (framer : Framer) (bytes more : Bytes) :
    framer.push (bytes ++ more) = (framer.push bytes).push more := by
  simp only [push, List.append_assoc]

/-- Whether what arrives is framed as if nothing had arrived before. -/
def Rested (framer : Framer) : Prop :=
  ∀ more, (framer.push more).owed = Frame.ofStream more

theorem rested_empty : Rested {} := fun _ => rfl

theorem Rested.owed_eq {framer : Framer} (h : framer.Rested) : framer.owed = [] := by
  have hnil := h []
  rwa [push_nil] at hnil

/-! ### One frame -/

theorem owed_push_cut (bytes more : Bytes) :
    Frame.ofStream (bytes ++ more) =
      (cut bytes).1.toList ++ ((cut bytes).2.push more).owed := by
  cases hcut : bytes.cutLine? with
  | some parts =>
    obtain ⟨line, rest⟩ := parts
    rw [Frame.ofStream_of_cutLine?_eq_some (Bytes.cutLine?_append_of_eq_some more hcut),
      cut_of_cutLine?_eq_some hcut]
    rfl
  | none =>
    by_cases hshort : bytes.length < maxLineBytes
    · simp only [cut, hcut, hshort, ↓reduceIte]
      rfl
    · rw [Frame.ofStream_append_of_overlong more hcut (Nat.not_lt.1 hshort)]
      simp only [cut, hcut, hshort, ↓reduceIte]
      rfl

/-- What a framer gives next is the first frame that it owes, now and whatever octets follow. -/
theorem owed_push_next (framer : Framer) (more : Bytes) :
    (framer.push more).owed = framer.next.1.toList ++ (framer.next.2.push more).owed := by
  obtain ⟨pending, skipping⟩ := framer
  cases skipping with
  | false => exact owed_push_cut pending more
  | true =>
    cases hcut : pending.cutLine? with
    | some parts =>
      obtain ⟨line, rest⟩ := parts
      have hmore := Bytes.cutLine?_append_of_eq_some more hcut
      simp only [owed, push, next, hcut, hmore, ↓reduceIte]
      exact owed_push_cut rest more
    | none =>
      have hmore := Bytes.cutLine?_append_of_eq_none more hcut
      simp only [owed, push, next, hcut, hmore, ↓reduceIte, Option.toList_none, List.nil_append]
      cases more.cutLine? <;> rfl

theorem ofStream_eq_nil_of_cut {bytes : Bytes} (h : (cut bytes).1 = none) :
    Frame.ofStream bytes = [] := by
  cases hcut : bytes.cutLine? with
  | some parts =>
    rw [cut_of_cutLine?_eq_some hcut] at h
    cases h
  | none =>
    simp only [cut, hcut] at h
    split at h
    · rename_i hshort
      rw [Frame.ofStream_of_cutLine?_eq_none hcut, Frame.ofTail?, if_pos hshort]
      rfl
    · cases h

theorem next_eq_none_iff {framer : Framer} : framer.next.1 = none ↔ framer.owed = [] := by
  constructor
  · intro h
    obtain ⟨pending, skipping⟩ := framer
    cases skipping with
    | false => exact ofStream_eq_nil_of_cut h
    | true =>
      cases hcut : pending.cutLine? with
      | some parts =>
        simp only [next, hcut, ↓reduceIte] at h
        simp only [owed, hcut, ↓reduceIte]
        exact ofStream_eq_nil_of_cut h
      | none => simp only [owed, hcut, ↓reduceIte]
  · intro h
    have howed := owed_push_next framer []
    rw [push_nil, h] at howed
    exact Option.toList_eq_nil_iff.1 (List.append_eq_nil_iff.1 howed.symm).1

theorem whole_of_cut {bytes : Bytes} {frame : Frame} (h : (cut bytes).1 = some frame) : frame.Whole := by
  cases hcut : bytes.cutLine? with
  | some parts =>
    rw [cut_of_cutLine?_eq_some hcut] at h
    cases h
    rw [Frame.ofLine]
    split
    · obtain ⟨body, hbody, hfeed⟩ := Bytes.exists_body_of_cutLine?_eq_some hcut
      exact ⟨body, hbody, hfeed, ‹_›⟩
    · trivial
  | none =>
    simp only [cut, hcut] at h
    split at h
    · cases h
    · cases h
      trivial

theorem whole_of_next {framer : Framer} {frame : Frame} (h : framer.next.1 = some frame) :
    frame.Whole := by
  rw [next] at h
  split at h
  · split at h
    · exact whole_of_cut h
    · cases h
  · exact whole_of_cut h

/-! ### All frames that can be cut -/

/-- A drained framer owes nothing, and for further octets just what it would have owed. -/
theorem drain_spec (framer : Framer) :
    framer.drain.1 = framer.owed ∧
      ∀ more, (framer.push more).owed = framer.owed ++ (framer.drain.2.push more).owed := by
  fun_induction drain framer with
  | case1 framer hnext =>
    have howed := next_eq_none_iff.1 hnext
    refine ⟨howed.symm, fun more => ?_⟩
    rw [owed_push_next framer more, hnext, howed]
    rfl
  | case2 framer frame hnext _ frames last hdrain ih =>
    have howed := owed_push_next framer []
    rw [push_nil, push_nil, hnext, Option.toList_some, List.singleton_append] at howed
    rw [hdrain] at ih
    refine ⟨by rw [howed, ← ih.1], fun more => ?_⟩
    rw [owed_push_next framer more, hnext, ih.2 more, howed]
    rfl

theorem owed_drain (framer : Framer) : framer.drain.2.owed = [] := by
  have h := framer.drain_spec.2 []
  rw [push_nil, push_nil] at h
  exact List.self_eq_append_right.1 h

/-- The framer after chunks, each of which was drained when it had arrived. -/
def drainEach (framer : Framer) (chunks : List Bytes) : Framer :=
  chunks.foldl (fun framer chunk => (framer.push chunk).drain.2) framer

theorem owed_push_drainEach {framer : Framer} (hdry : framer.owed = []) (chunks : List Bytes)
    (more : Bytes) :
    (framer.push (chunks.flatten ++ more)).owed =
      (framer.push chunks.flatten).owed ++ ((framer.drainEach chunks).push more).owed := by
  induction chunks generalizing framer with
  | nil =>
    rw [List.flatten_nil, List.nil_append, push_nil, hdry]
    rfl
  | cons chunk rest ih =>
    have hchunk := (framer.push chunk).drain_spec.2
    have hrest := ih (owed_drain (framer.push chunk))
    rw [List.flatten_cons, List.append_assoc, push_append, hchunk, hrest, push_append, hchunk,
      List.append_assoc]
    rfl

/-! ### Runs -/

/-- What a framer that began with nothing can come to: the stream that it has taken in, the frames that
it has given, and its state. Octets may arrive and frames may be asked for in any order. -/
inductive Run : Bytes → List Frame → Framer → Prop where
  | start : Run [] [] {}
  | push {stream : Bytes} {frames : List Frame} {framer : Framer} (bytes : Bytes) :
      Run stream frames framer → Run (stream ++ bytes) frames (framer.push bytes)
  | next {stream : Bytes} {frames : List Frame} {framer : Framer} :
      Run stream frames framer → Run stream (frames ++ framer.next.1.toList) framer.next.2

variable {stream : Bytes} {frames frames' : List Frame} {framer framer' : Framer}

/-- The invariant of a run. It speaks of all octets that may follow, so that taking some in keeps it. -/
theorem Run.ofStream_append (h : Run stream frames framer) (more : Bytes) :
    Frame.ofStream (stream ++ more) = frames ++ (framer.push more).owed := by
  induction h generalizing more with
  | start => rfl
  | push bytes _ ih => rw [List.append_assoc, ih, push_append]
  | @next stream frames framer _ ih => rw [ih, owed_push_next framer more, List.append_assoc]

theorem Run.ofStream_eq (h : Run stream frames framer) :
    Frame.ofStream stream = frames ++ framer.owed := by
  simpa only [List.append_nil, push_nil] using h.ofStream_append []

theorem Run.next_eq_none_iff (h : Run stream frames framer) :
    framer.next.1 = none ↔ frames = Frame.ofStream stream := by
  rw [Framer.next_eq_none_iff, h.ofStream_eq]
  exact ⟨fun howed => by rw [howed, List.append_nil], List.self_eq_append_right.1⟩

/-- Framing depends on the stream alone. The frames given so far begin the frames of the stream, a framer
refuses a frame just when all of them have been given, and two framers that have taken in the same
stream in different pieces and then refuse a frame have given the same ones. -/
theorem Run.frames_of_stream (h : Run stream frames framer) :
    frames <+: Frame.ofStream stream ∧
      (framer.next.1 = none ↔ frames = Frame.ofStream stream) ∧
      ∀ frames' framer', Run stream frames' framer' → framer.next.1 = none →
        framer'.next.1 = none → frames = frames' := by
  refine ⟨⟨framer.owed, h.ofStream_eq.symm⟩, h.next_eq_none_iff, ?_⟩
  intro frames' framer' h' hdry hdry'
  rw [h.next_eq_none_iff.1 hdry, h'.next_eq_none_iff.1 hdry']

/-- A line that is too long by its line feed, reported before this has arrived and after it. The two
framers end in different states, with the same frame. -/
theorem Run.frames_of_stream_overlong :
    ∃ stream : Bytes, stream.length = maxLineBytes + 1 ∧ Frame.ofStream stream = [.overlong] ∧
      Run stream [.overlong] { pending := [lineFeed], skipping := true } ∧
      Run stream [.overlong] {} := by
  obtain ⟨body, hlength, hbody⟩ : ∃ body : Bytes, body.length = maxLineBytes ∧ lineFeed ∉ body :=
    ⟨List.replicate maxLineBytes 120, List.length_replicate, by simp [lineFeed]⟩
  have hearly : ({ pending := body } : Framer).next = (some .overlong, { skipping := true }) := by
    simp [Framer.next, cut, Bytes.cutLine?_eq_none_iff.2 hbody, hlength]
  have hlate : ({ pending := body ++ [lineFeed] } : Framer).next = (some .overlong, {}) := by
    simp [Framer.next, cut, Bytes.cutLine?_append_lineFeed [] hbody, hlength]
  have early : Run (body ++ [lineFeed]) _ _ := .push [lineFeed] (.next (.push body .start))
  have late : Run (body ++ [lineFeed]) _ _ := .next (.push [lineFeed] (.push body .start))
  simp only [List.nil_append, Framer.push, hearly, hlate, Option.toList_some] at early late
  have hframes := (frames_of_stream early).2.1.1 rfl
  have hsame := (frames_of_stream early).2.2 _ _ late rfl rfl
  exact ⟨_, by rw [List.length_append, hlength, List.length_singleton], hframes.symm, early, hsame ▸ late⟩

end Framer

end LineStore
