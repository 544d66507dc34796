import LineStore.Proofs.Server.Transcripts
import LineStore.Server.Session
import Mathlib.Logic.Function.Iterate

/-!
A worker gives its client the replies of a transcript, whatever it meets with in reading and writing.

Every step keeps account: the frames that were answered and those that the rest of the stream brings are
the frames of the stream, and what was written and what is being written are the replies. Each step brings
the end nearer.
-/

namespace LineStore

namespace Framer

theorem owed_of_next_none {framer framer' : Framer} (h : framer.next = (none, framer')) :
    framer'.owed = [] := by
  have hdry := next_eq_none_iff.1 (congrArg Prod.fst h)
  have howed := owed_push_next framer []
  rw [h, push_nil, push_nil, hdry] at howed
  exact howed.symm

theorem length_pending_cut_le (bytes : Bytes) :
    (cut bytes).2.pending.length ≤ bytes.length := by
  cases hcut : bytes.cutLine? with
  | some parts =>
    rw [cut_of_cutLine?_eq_some hcut]
    exact (Bytes.length_lt_of_cutLine?_eq_some hcut).le
  | none =>
    simp only [cut, hcut]
    split
    · exact le_rfl
    · exact Nat.zero_le _

theorem length_pending_next_le (framer : Framer) :
    framer.next.2.pending.length ≤ framer.pending.length := by
  rw [next]
  split
  · split
    · rename_i hcut
      exact (length_pending_cut_le _).trans (Bytes.length_lt_of_cutLine?_eq_some hcut).le
    · exact Nat.zero_le _
  · exact length_pending_cut_le _

end Framer

namespace Server

/-- What is left to write of a reply. -/
def Worker.Phase.rest : Worker.Phase → Bytes
  | .writing rest | .stuck rest | .waitingToWrite rest => rest
  | _ => []

namespace Session

/-- The frames that a session has still to answer, if its client does not ask to be disconnected. -/
def remaining (session : Session) : List Frame :=
  (session.worker.framer.push session.stream).owed

/-- Whether a session has answered the frames before those that remain, all of them if it has ended, and
has none at hand when it reads. -/
def OnTrack (frames : List Frame) (session : Session) : Prop :=
  match session.worker.phase with
  | .checking | .reading | .waitingToRead =>
    session.worker.framer.owed = [] ∧ frames = session.worker.served ++ session.remaining
  | .framing | .writing _ | .stuck _ | .waitingToWrite _ =>
    frames = session.worker.served ++ session.remaining
  | .over .finished => frames = session.worker.served
  | .over .dismissed =>
    ∃ frame rest, frame.AsksToClose ∧ frames = session.worker.served ++ frame :: rest
  | .over _ => False

/-- The account of a session that has these frames to answer and began with this store. -/
structure Kept (frames : List Frame) (store : Store) (session : Session) : Prop where
  onTrack : session.OnTrack frames
  stays : ∀ frame ∈ session.worker.served, ¬ frame.AsksToClose
  told : Transcript.ofFrames session.worker.served store =
    { replies := session.worker.replies, store := session.worker.responder.state }
  delivered : session.worker.delivered ++ session.worker.phase.rest = session.worker.owed

variable {frames : List Frame} {store : Store} {session : Session} {latency : Span}

/-! ### One step -/

theorem Kept.step_framing (h : session.Kept frames store) (hphase : session.worker.phase = .framing) :
    (session.step latency).Kept frames store := by
  obtain ⟨⟨responder, framer, phase, delivered, served, replies⟩, reads, writes⟩ := session
  obtain ⟨hframes, hstays, htold, hdelivered⟩ := h
  cases hphase
  -- what is owed is the next frame, if there is one, and what the framer owes after it
  have howed := Framer.owed_push_next framer (reads.flatMap Inflow.bytes)
  have hframes' : frames = served ++ (framer.push (reads.flatMap Inflow.bytes)).owed := hframes
  rw [howed] at hframes'
  rw [Session.step, Worker.step, Worker.takeFrame]
  cases hnext : framer.next with
  | mk frame? framer' =>
    rw [hnext] at hframes'
    cases frame? with
    | none => exact ⟨⟨Framer.owed_of_next_none hnext, hframes'⟩, hstays, htold, hdelivered⟩
    | some frame =>
      simp only
      by_cases hclose : frame.AsksToClose
      · rw [if_pos hclose]
        exact ⟨⟨frame, _, hclose, hframes'⟩, hstays, htold, hdelivered⟩
      · obtain ⟨counters, hserve⟩ := Transcript.serveFrame_engine latency frame responder
        rw [if_neg hclose, hserve]
        refine ⟨?_, ?_, Transcript.ofFrames_concat htold frame, ?_⟩
        · exact hframes'.trans (List.append_assoc served [frame] _).symm
        · intro other hother
          rcases List.mem_append.1 hother with hold | hnew
          · exact hstays other hold
          · rwa [List.eq_of_mem_singleton hnew]
        · have hbefore : delivered = replies.flatMap Reply.encode :=
            (List.append_nil delivered).symm.trans hdelivered
          simp [Worker.Phase.rest, Worker.owed, hbefore]

theorem Kept.step_writing (h : session.Kept frames store) {rest : Bytes}
    (hphase : session.worker.phase = .writing rest) : (session.step latency).Kept frames store := by
  obtain ⟨⟨responder, framer, phase, delivered, served, replies⟩, reads, writes⟩ := session
  obtain ⟨hframes, hstays, htold, hdelivered⟩ := h
  cases hphase
  have haccepted : ∀ more, delivered ++ rest.take (more + 1) ++ rest.drop (more + 1) =
      replies.flatMap Reply.encode := by
    intro more
    rw [List.append_assoc, List.take_append_drop]
    exact hdelivered
  cases rest with
  | nil => exact ⟨hframes, hstays, htold, hdelivered⟩
  | cons b rest =>
    cases writes with
    | nil => exact ⟨hframes, hstays, htold, haccepted 0⟩
    | cons write writes =>
      cases write with
      | accepted more => exact ⟨hframes, hstays, htold, haccepted more⟩
      | wouldBlock => exact ⟨hframes, hstays, htold, hdelivered⟩
      | interrupted => exact ⟨hframes, hstays, htold, hdelivered⟩

theorem Kept.step_reading (h : session.Kept frames store) (hphase : session.worker.phase = .reading) :
    (session.step latency).Kept frames store := by
  obtain ⟨⟨responder, framer, phase, delivered, served, replies⟩, reads, writes⟩ := session
  obtain ⟨htrack, hstays, htold, hdelivered⟩ := h
  cases hphase
  obtain ⟨hdry, hframes⟩ := htrack
  cases reads with
  | nil =>
    refine ⟨?_, hstays, htold, hdelivered⟩
    have hnone : (framer.push []).owed = [] := by rw [Framer.push_nil, hdry]
    exact hframes.trans ((congrArg (served ++ ·) hnone).trans (List.append_nil served))
  | cons read reads =>
    cases read with
    | chunk bytes =>
      refine ⟨?_, hstays, htold, hdelivered⟩
      exact hframes.trans (congrArg (served ++ Framer.owed ·) (Framer.push_append framer bytes _))
    | wouldBlock => exact ⟨⟨hdry, hframes⟩, hstays, htold, hdelivered⟩
    | interrupted => exact ⟨⟨hdry, hframes⟩, hstays, htold, hdelivered⟩

theorem Kept.step (h : session.Kept frames store) : (session.step latency).Kept frames store := by
  cases hphase : session.worker.phase with
  | framing => exact h.step_framing hphase
  | writing rest => exact h.step_writing hphase
  | reading => exact h.step_reading hphase
  | _ =>
    obtain ⟨⟨responder, framer, phase, delivered, served, replies⟩, reads, writes⟩ := session
    cases hphase
    exact ⟨h.onTrack, h.stays, h.told, h.delivered⟩

theorem step_of_over {ending : Connection.Ending} (h : session.worker.phase = .over ending) :
    session.step latency = session := by
  obtain ⟨⟨responder, framer, phase, delivered, served, replies⟩, reads, writes⟩ := session
  cases h
  rfl

/-! ### The end -/

/-- How far a phase is from the next try to read. -/
def rank : Worker.Phase → Nat
  | .over _ => 0
  | .reading => 1
  | .checking => 2
  | .waitingToRead => 3
  | .framing => 4
  | .writing _ => 5
  | .waitingToWrite _ => 6
  | .stuck _ => 7

/-- The octets that are not framed. -/
def unframed (session : Session) : Nat :=
  session.worker.framer.pending.length

/-- What is left of a reply and of the tries to write it. -/
def unwritten (session : Session) : Nat :=
  session.writes.length + session.worker.phase.rest.length

/-- A try to read is used up, or a frame is taken, or a try to write is made, or the worker goes on to where
it can do one of these. -/
inductive Nearer (after before : Session) : Prop where
  | read (hreads : after.reads.length < before.reads.length)
  | frame (hreads : after.reads = before.reads) (hframe : after.unframed < before.unframed)
  | write (hreads : after.reads = before.reads) (hframe : after.unframed = before.unframed)
      (hwrite : after.unwritten < before.unwritten)
  | move (hreads : after.reads = before.reads) (hframe : after.unframed ≤ before.unframed)
      (hwrite : after.unwritten = before.unwritten)
      (hrank : rank after.worker.phase < rank before.worker.phase)

theorem nearer_step_framing (latency : Span) (h : session.worker.phase = .framing) :
    (session.step latency).Nearer session := by
  obtain ⟨⟨responder, framer, phase, delivered, served, replies⟩, reads, writes⟩ := session
  cases h
  rw [step, Worker.step, Worker.takeFrame]
  cases hnext : framer.next with
  | mk frame? framer' =>
    cases frame? with
    | none =>
      have hle := framer.length_pending_next_le
      rw [hnext] at hle
      exact .move rfl hle rfl (Nat.lt_add_of_pos_right Nat.two_pos)
    | some frame =>
      have hlt := Framer.length_pending_next_lt (congrArg Prod.fst hnext)
      rw [hnext] at hlt
      obtain ⟨counters, hserve⟩ := Transcript.serveFrame_engine latency frame responder
      simp only [hserve]
      split
      · exact .frame rfl hlt
      · exact .frame rfl hlt

theorem nearer_step_writing (latency : Span) {rest : Bytes} (h : session.worker.phase = .writing rest) :
    (session.step latency).Nearer session := by
  obtain ⟨⟨responder, framer, phase, delivered, served, replies⟩, reads, writes⟩ := session
  cases h
  cases rest with
  | nil => exact .move rfl le_rfl rfl (Nat.lt_succ_self 4)
  | cons b rest =>
    cases writes with
    | nil => exact .write rfl rfl (Nat.add_lt_add_left (Nat.lt_succ_self rest.length) 0)
    | cons write writes =>
      have hfewer : writes.length + (b :: rest).length < (write :: writes).length + (b :: rest).length :=
        Nat.add_lt_add_right (Nat.lt_succ_self writes.length) _
      cases write with
      | accepted more =>
        refine .write rfl rfl (lt_of_le_of_lt (Nat.add_le_add_left ?_ writes.length) hfewer)
        exact (List.drop_sublist _ _).length_le
      | wouldBlock => exact .write rfl rfl hfewer
      | interrupted => exact .write rfl rfl hfewer

theorem nearer_step (latency : Span) (h : ∀ ending, session.worker.phase ≠ .over ending) :
    (session.step latency).Nearer session := by
  cases hphase : session.worker.phase with
  | framing => exact nearer_step_framing latency hphase
  | writing rest => exact nearer_step_writing latency hphase
  | reading =>
    obtain ⟨⟨responder, framer, phase, delivered, served, replies⟩, reads, writes⟩ := session
    cases hphase
    cases reads with
    | nil => exact .move rfl le_rfl rfl Nat.one_pos
    | cons read reads => exact .read (Nat.lt_succ_self reads.length)
  | checking | waitingToRead | stuck | waitingToWrite =>
    obtain ⟨⟨responder, framer, phase, delivered, served, replies⟩, reads, writes⟩ := session
    cases hphase
    exact .move rfl le_rfl rfl (Nat.lt_succ_self _)
  | _ => exact absurd hphase (h _)

/-- How far a session is from its end. What it reads has to be framed and what it frames has to be written,
so that the earlier of these numbers count for more. -/
def distance (session : Session) : Nat × Nat × Nat × Nat :=
  (session.reads.length, session.unframed, session.unwritten, rank session.worker.phase)

theorem Nearer.distance_lt {after before : Session} (h : after.Nearer before) :
    WellFoundedRelation.rel after.distance before.distance := by
  cases h with
  | read hreads => exact .left _ _ hreads
  | frame hreads hframe => exact .right' _ (congrArg List.length hreads).le (.left _ _ hframe)
  | write hreads hframe hwrite =>
    exact .right' _ (congrArg List.length hreads).le (.right' _ hframe.le (.left _ _ hwrite))
  | move hreads hframe hwrite hrank =>
    exact .right' _ (congrArg List.length hreads).le (.right' _ hframe (.right' _ hwrite.le hrank))

/-- Every session ends. -/
theorem ends (latency : Span) (session : Session) :
    ∃ steps ending, ((step latency)^[steps] session).worker.phase = .over ending := by
  by_cases hover : ∃ ending, session.worker.phase = .over ending
  · obtain ⟨ending, hending⟩ := hover
    exact ⟨0, ending, hending⟩
  · have hlive : ∀ ending, session.worker.phase ≠ .over ending := not_exists.1 hover
    obtain ⟨steps, hsteps⟩ := ends latency (session.step latency)
    exact ⟨steps + 1, hsteps⟩
termination_by session.distance
decreasing_by exact (nearer_step latency hlive).distance_lt

/-! ### All of a stream -/

theorem kept_start (responder : Responder Store) (reads : List Inflow) (writes : List Outflow) :
    (start responder reads writes).Kept (Frame.ofStream (reads.flatMap Inflow.bytes)) responder.state :=
  ⟨⟨rfl, rfl⟩, fun _ hframe => absurd hframe List.not_mem_nil, rfl, rfl⟩

theorem Kept.iterate (h : session.Kept frames store) (steps : Nat) :
    ((Session.step latency)^[steps] session).Kept frames store := by
  induction steps with
  | zero => exact h
  | succ steps ih =>
    rw [Function.iterate_succ_apply']
    exact ih.step

/-- Why a session ends, and which frames it has answered then. -/
theorem Kept.ending (h : session.Kept frames store) {ending : Connection.Ending}
    (hover : session.worker.phase = .over ending) :
    ending = (if ∃ frame ∈ frames, frame.AsksToClose then .dismissed else .finished) ∧
      session.worker.served = frames.takeWhile fun frame => ¬ frame.AsksToClose := by
  have htrack := h.onTrack
  -- none of the frames that were answered stops the search for one that asks to close
  have hserved : session.worker.served.takeWhile (fun frame => ¬ frame.AsksToClose) =
      session.worker.served :=
    List.takeWhile_eq_self_iff.2 fun frame hframe => decide_eq_true (h.stays frame hframe)
  rw [OnTrack, hover] at htrack
  cases ending with
  | finished =>
    have hnone : ¬ ∃ frame ∈ frames, frame.AsksToClose := by
      rintro ⟨frame, hframe, hclose⟩
      exact h.stays frame (htrack ▸ hframe) hclose
    rw [if_neg hnone, show frames = session.worker.served from htrack, hserved]
    exact ⟨rfl, rfl⟩
  | dismissed =>
    obtain ⟨frame, rest, hclose, hframes⟩ := htrack
    have hsome : ∃ frame ∈ frames, frame.AsksToClose :=
      ⟨frame, hframes ▸ List.mem_append_right _ List.mem_cons_self, hclose⟩
    rw [if_pos hsome, hframes, List.takeWhile_append, hserved, if_pos rfl,
      List.takeWhile_cons_of_neg (by simpa using hclose), List.append_nil]
    exact ⟨rfl, rfl⟩
  | broken | aborted | stopped => exact htrack.elim

/-- What a worker has to show when its client has sent this stream and the store was this one before. -/
structure Fulfils (stream : Bytes) (store : Store) (worker : Worker Store) : Prop where
  phase : worker.phase = .over (if Transcript.Closes stream then .dismissed else .finished)
  delivered : worker.delivered = (Transcript.ofStream stream store).replies.flatMap Reply.encode
  state : worker.responder.state = (Transcript.ofStream stream store).store
  served : worker.served = Connection.heard stream
  replies : worker.replies = (Transcript.ofStream stream store).replies
  one_each : worker.replies.length = worker.served.length

theorem Kept.fulfils {stream : Bytes} (h : session.Kept (Frame.ofStream stream) store)
    {ending : Connection.Ending} (hover : session.worker.phase = .over ending) :
    Fulfils stream store session.worker := by
  obtain ⟨hending, hserved⟩ := h.ending hover
  have htold := h.told
  have hwritten := h.delivered
  have hlength := Transcript.length_ofFrames session.worker.served store
  have hexpected : Transcript.ofStream stream store =
      Transcript.ofFrames session.worker.served store := by
    rw [Transcript.ofStream_eq, hserved]
    rfl
  rw [htold] at hexpected hlength
  rw [hover] at hwritten
  simp only [Transcript.exists_asksToClose_iff] at hending
  constructor
  · rw [hover, hending]
  · rw [hexpected]
    exact (List.append_nil _).symm.trans hwritten
  · rw [hexpected]
  · exact hserved
  · rw [hexpected]
  · exact hlength

/-- However a stream is cut into pieces, and however many tries to read and to write come to nothing or to
a part, a connection ends with the replies and the store of the transcript of its stream. Each frame that
is heard gets one reply. What follows a bare line gets none and does nothing. -/
theorem transcript (latency : Span) (responder : Responder Store) (reads : List Inflow)
    (writes : List Outflow) :
    let stream := reads.flatMap Inflow.bytes
    let expected := Transcript.ofStream stream responder.state
    (∃ steps, ∀ more, Fulfils stream responder.state
        ((step latency)^[steps + more] (start responder reads writes)).worker) ∧
      (∀ chunks : List Bytes, chunks.flatten = stream →
        let answered := Connection.receiveAll Store.engine latency chunks {} responder
        answered.written = expected.replies.flatMap Reply.encode ∧
          answered.responder.state = expected.store ∧
          answered.ending? = if Transcript.Closes stream then some .dismissed else none) ∧
      (Transcript.Closes stream →
        ∀ later, Transcript.ofStream (stream ++ later) responder.state = expected) := by
  intro stream expected
  refine ⟨?_, fun chunks hchunks => ?_,
    fun hcloses later => Transcript.ofStream_append_of_closes hcloses later _⟩
  · obtain ⟨steps, ending, hover⟩ := ends latency (start responder reads writes)
    refine ⟨steps, fun more => ?_⟩
    have hstill : (step latency)^[steps + more] (start responder reads writes) =
        (step latency)^[steps] (start responder reads writes) := by
      rw [Nat.add_comm, Function.iterate_add_apply, Function.iterate_fixed (step_of_over hover)]
    rw [hstill]
    exact ((kept_start responder reads writes).iterate steps).fulfils hover
  · have hanswered := Transcript.receiveAll_engine latency chunks responder
    rw [hchunks] at hanswered
    exact hanswered

/-- A line whose line feed comes late, with a bare line and another line behind it. The bare line ends the
connection, and the key stays in the store. -/
theorem transcript_pipelined :
    ∃ worker, (∃ steps, ((step {})^[steps] (start { state := Store.empty 1 Nat.one_pos }
        [.chunk (Utf8.encode "CREATE k v\r"), .interrupted, .chunk (Utf8.encode "\n\r\nDELETE k\n")]
        [.accepted 3, .wouldBlock])).worker = worker) ∧
      worker.phase = .over .dismissed ∧ worker.delivered = Utf8.encode "CREATE OK\n" ∧
      worker.responder.state.search "k" = some "v" ∧
      (Connection.receiveAll Store.engine {} [Utf8.encode "CREATE k v\r\n\r", Utf8.encode "\nDELETE k\n"] {}
        { state := Store.empty 1 Nat.one_pos }).ending? = some .dismissed ∧
      (Transcript.ofStream (Utf8.encode "CREATE k v\r\n\r\nDELETE k\n" ++ Utf8.encode "READ k\n")
        (Store.empty 1 Nat.one_pos)).replies = [.created] := by
  obtain ⟨⟨steps, hworker⟩, hchunks, hlater⟩ := transcript {} { state := Store.empty 1 Nat.one_pos }
    [.chunk (Utf8.encode "CREATE k v\r"), .interrupted, .chunk (Utf8.encode "\n\r\nDELETE k\n")]
    [.accepted 3, .wouldBlock]
  obtain ⟨hphase, hdelivered, hstate, -⟩ := hworker 0
  refine ⟨_, ⟨steps, rfl⟩, hphase.trans (by decide), hdelivered.trans (by decide), ?_, ?_, ?_⟩
  · exact (congrArg (Store.search · "k") hstate).trans rfl
  · exact (hchunks [Utf8.encode "CREATE k v\r\n\r", Utf8.encode "\nDELETE k\n"] (by decide)).2.2
  · exact (congrArg Transcript.replies (hlater (by decide) (Utf8.encode "READ k\n"))).trans rfl

end Session

end Server

end LineStore
