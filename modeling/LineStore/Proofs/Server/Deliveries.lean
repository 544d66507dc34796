import LineStore.Proofs.Server.Executions
import LineStore.Proofs.Server.Sessions
import Mathlib.Data.List.Infix

/-!
A worker delivers its replies in their order, whatever its socket does, and carries out no frame twice.

What has been delivered and what is left to write of the last reply are the replies to the frames that were
answered. A frame is carried out only when nothing is left to write, so at most one of those that were
carried out lacks its reply or a part of it, whenever the connection ends. The responder shows that each of
them was carried out once: it is what others have left and the frames, each served once, have made of it.
-/

namespace LineStore.Server.Worker

variable {σ : Type}

/-- What is known of a worker that writes a reply, or has ended to, if these octets are to be delivered when
the reply has been written. -/
def Written (whole : Bytes) (worker : Worker σ) : Prop :=
  match worker.phase with
  | .writing rest => worker.delivered ++ rest = whole
  | .stuck rest | .waitingToWrite rest => rest ≠ [] ∧ worker.delivered ++ rest = whole
  | .framing => worker.delivered = whole
  | .over .stopped | .over .aborted => ∃ rest, rest ≠ [] ∧ worker.delivered ++ rest = whole
  | _ => False

/-- What a worker has to show that has read this stream, and whose responder was `first` and has gone through
these changes. -/
structure Faithful (engine : Store.Engine σ) (first : Responder σ) (stream : Bytes)
    (changes : List (Change σ)) (worker : Worker σ) : Prop where
  /-- The frames of the stream are carried out in their order, each of them once. -/
  executed_prefix : executed changes <+: Frame.ofStream stream
  /-- Nothing else has been done to the responder. -/
  responder : worker.responder = (replay engine changes first).2
  /-- The replies are what the responder answered to these frames when they were carried out. -/
  answered : worker.served = executed changes ∧
      (replay engine changes first).1 = worker.replies.map some ∨
    worker.phase = .over .broken ∧ ∃ frame, executed changes = worker.served ++ [frame] ∧
      (replay engine changes first).1 = worker.replies.map some ++ [none]
  /-- A step that carries a frame out asks the responder once. -/
  asks_once : ∀ latency weather frame, worker.executing = some frame →
    let answer := worker.responder.serveFrame engine latency frame
    let after := worker.step engine latency weather
    after.responder = answer.2 ∧ after.replies = worker.replies ++ answer.1.toList ∧
      after.phase = answer.1.elim (.over .broken) fun reply => .writing reply.encode
  /-- No other step asks the responder for anything. -/
  leaves_be : ∀ latency weather, worker.executing = none →
    let after := worker.step engine latency weather
    after.responder = worker.responder ∧ after.replies = worker.replies
  /-- A step asks the engine for the operation of the frame that it carries out, if there is one, and for
  nothing else. -/
  one_call : ∀ latency weather, (worker.step engine latency weather).responder.state =
    (worker.executing.bind Frame.operation?).elim worker.responder.state fun operation =>
      (engine operation worker.responder.state).2
  delivered_prefix : worker.delivered <+: worker.owed
  all_but_last : worker.replies.dropLast.flatMap Reply.encode <+: worker.delivered
  /-- A frame is carried out when all replies before have been delivered. -/
  next_after_delivery : ∀ frame, worker.executing = some frame → worker.delivered = worker.owed
  /-- All frames that were carried out but one have been told all of their replies. -/
  at_most_one : ∃ told, (executed changes).length ≤ told + 1 ∧ told ≤ worker.replies.length ∧
    (worker.replies.take told).flatMap Reply.encode <+: worker.delivered
  /-- Writing a reply ends with the connection, unless the whole of the reply has been delivered. -/
  written : ∀ reply latency weathers, worker.phase = .writing reply →
    (worker.writeAll engine latency weathers).phase.isWriting = false →
      ((worker.writeAll engine latency weathers).phase = .framing ↔
        (worker.writeAll engine latency weathers).delivered = worker.delivered ++ reply)

/-- The invariant of a worker at its connection. -/
structure Steady (engine : Store.Engine σ) (first : Responder σ) (stream : Bytes)
    (changes : List (Change σ)) (worker : Worker σ) : Prop where
  framed : worker.phase.isOver = false →
    ∀ more, Frame.ofStream (stream ++ more) = executed changes ++ (worker.framer.push more).owed
  executed_prefix : executed changes <+: Frame.ofStream stream
  responder : worker.responder = (replay engine changes first).2
  answered : worker.phase ≠ .over .broken ∧ worker.served = executed changes ∧
      (replay engine changes first).1 = worker.replies.map some ∨
    worker.phase = .over .broken ∧ worker.delivered = worker.owed ∧
      ∃ frame, executed changes = worker.served ++ [frame] ∧
        (replay engine changes first).1 = worker.replies.map some ++ [none]
  /-- What is left to write belongs to the last reply. -/
  delivered : ∃ rest, worker.delivered ++ rest = worker.owed ∧
    (worker.phase.isOver = false → rest = worker.phase.rest) ∧
    (rest = [] ∨ ∃ reply, worker.replies.getLast? = some reply ∧ rest <:+ reply.encode)

variable {engine : Store.Engine σ} {first : Responder σ} {stream : Bytes} {changes : List (Change σ)}
  {worker : Worker σ} {frame : Frame}

/-! ### One step -/

theorem steady_start (engine : Store.Engine σ) (first : Responder σ) :
    Steady engine first [] [] { responder := first } where
  framed := fun _ more => Framer.rested_empty more ▸ rfl
  executed_prefix := List.nil_prefix
  responder := rfl
  answered := .inl ⟨nofun, rfl, rfl⟩
  delivered := ⟨[], rfl, fun _ => rfl, .inl rfl⟩

theorem Steady.all_delivered (h : worker.Steady engine first stream changes)
    (hphase : worker.phase = .framing) : worker.delivered = worker.owed := by
  obtain ⟨rest, hdelivered, hrest, -⟩ := h.delivered
  have hnil : rest = [] := by
    rw [hrest (by rw [hphase]; rfl), hphase]
    rfl
  rwa [hnil, List.append_nil] at hdelivered

theorem Steady.all_answered (h : worker.Steady engine first stream changes)
    (hlive : worker.phase.isOver = false) :
    worker.served = executed changes ∧ (replay engine changes first).1 = worker.replies.map some := by
  rcases h.answered with ⟨-, hanswered⟩ | ⟨hbroken, -⟩
  · exact hanswered
  · rw [hbroken] at hlive
    cases hlive

/-- A worker that goes on with what it has begun, or gives up, stays steady: what is left to write becomes
delivered from its front. -/
theorem Steady.move (h : worker.Steady engine first stream changes)
    (hlive : worker.phase.isOver = false)
    {phase : Phase} {delivered rest : Bytes} (hphase : phase ≠ .over .broken)
    (hdelivered : delivered ++ rest = worker.delivered ++ worker.phase.rest)
    (hsuffix : rest <:+ worker.phase.rest) (hrest : phase.isOver = false → rest = phase.rest) :
    Steady engine first stream changes { worker with phase, delivered } := by
  obtain ⟨whole, hwhole, heq, hlast⟩ := h.delivered
  have hwhole' := heq hlive
  subst hwhole'
  refine ⟨fun _ => h.framed hlive, h.executed_prefix, h.responder, .inl ⟨hphase, h.all_answered hlive⟩, rest,
    hdelivered.trans hwhole, hrest, ?_⟩
  rcases hlast with hnil | ⟨reply, hreply, hpart⟩
  · rw [hnil] at hsuffix
    exact .inl (List.suffix_nil.1 hsuffix)
  · exact .inr ⟨reply, hreply, hsuffix.trans hpart⟩

/-- A worker that goes on without writing anything has the same left to write. -/
theorem Steady.go_on (h : worker.Steady engine first stream changes)
    (hlive : worker.phase.isOver = false) {phase : Phase} (hphase : phase.isOver = false)
    (hrest : worker.phase.rest = phase.rest) : Steady engine first stream changes { worker with phase } := by
  have hsound : phase ≠ .over .broken := by
    rintro rfl
    cases hphase
  exact h.move hlive hsound rfl (List.suffix_refl _) fun _ => hrest

theorem Steady.give_up (h : worker.Steady engine first stream changes)
    (hlive : worker.phase.isOver = false) {ending : Connection.Ending} (hending : ending ≠ .broken) :
    Steady engine first stream changes { worker with phase := .over ending } := by
  have hsound : Phase.over ending ≠ .over .broken := fun heq => hending (Phase.over.inj heq)
  exact h.move hlive hsound rfl (List.suffix_refl _) fun hover => by cases hover

/-- What is owed to the stream is the next frame, if there is one, and what the framer owes after it. -/
theorem Steady.framed_next (h : worker.Steady engine first stream changes)
    (hlive : worker.phase.isOver = false) (more : Bytes) :
    Frame.ofStream (stream ++ more) =
      executed changes ++ (worker.framer.next.1.toList ++ (worker.framer.next.2.push more).owed) :=
  (h.framed hlive more).trans (congrArg (_ ++ ·) (Framer.owed_push_next worker.framer more))

theorem Steady.pass (h : worker.Steady engine first stream changes) (hphase : worker.phase = .framing)
    (hexecuting : worker.executing = none) (latency : Span) :
    Steady engine first stream changes (worker.takeFrame engine latency) := by
  have hlive : worker.phase.isOver = false := by rw [hphase]; rfl
  have hall := (List.append_nil _).trans (h.all_delivered hphase)
  obtain ⟨phase, htake, ⟨rfl, hnone⟩ | ⟨rfl, -⟩⟩ :=
    takeFrame_of_executing_eq_none engine hphase hexecuting latency
  · rw [htake]
    exact
      { framed := fun _ more => by rw [h.framed_next hlive, hnone]; rfl
        executed_prefix := h.executed_prefix
        responder := h.responder
        answered := .inl ⟨nofun, h.all_answered hlive⟩
        delivered := ⟨[], hall, fun _ => rfl, .inl rfl⟩ }
  · rw [htake]
    exact
      { framed := nofun
        executed_prefix := h.executed_prefix
        responder := h.responder
        answered := .inl ⟨nofun, h.all_answered hlive⟩
        delivered := ⟨[], hall, nofun, .inl rfl⟩ }

/-- A worker begins to write only when all that it owes has been delivered, so that it owes one more reply
from then on and nothing else. -/
theorem Steady.carry_out (h : worker.Steady engine first stream changes)
    (hexecuting : worker.executing = some frame) (latency : Span) (weather : Weather) :
    Steady engine first stream (changes ++ [.serve frame latency])
      (worker.step engine latency weather) := by
  have hphase := phase_of_executing hexecuting
  have hlive : worker.phase.isOver = false := by rw [hphase]; rfl
  have hall := h.all_delivered hphase
  obtain ⟨hserved, hanswers⟩ := h.all_answered hlive
  have hexecuted : executed (changes ++ [.serve frame latency]) = worker.served ++ [frame] := by
    rw [executed_concat_serve, hserved]
  have hframed (more : Bytes) : Frame.ofStream (stream ++ more) =
      executed (changes ++ [.serve frame latency]) ++ (worker.framer.next.2.push more).owed := by
    rw [h.framed_next hlive, (next_of_executing hexecuting).1, executed_concat_serve, List.append_assoc]
    rfl
  have hprefix : executed (changes ++ [.serve frame latency]) <+: Frame.ofStream stream :=
    ⟨(worker.framer.next.2.push []).owed, by rw [← hframed, List.append_nil]⟩
  have hreplay : replay engine (changes ++ [.serve frame latency]) first =
      (worker.replies.map some ++ [(worker.responder.serveFrame engine latency frame).1],
        (worker.responder.serveFrame engine latency frame).2) := by
    simp only [replay_append, hanswers, ← h.responder]
    rfl
  rw [step_of_executing hexecuting]
  cases hserve : worker.responder.serveFrame engine latency frame with
  | mk answer responder =>
    rw [hserve] at hreplay
    have hresponder : responder = (replay engine (changes ++ [.serve frame latency]) first).2 := by
      rw [hreplay]
    cases answer with
    | some reply =>
      have howed : worker.delivered ++ reply.encode =
          (worker.replies ++ [reply]).flatMap Reply.encode := by
        rw [hall, owed, List.flatMap_append, List.flatMap_singleton]
      have hanswered : (replay engine (changes ++ [.serve frame latency]) first).1 =
          (worker.replies ++ [reply]).map some := by
        rw [hreplay, List.map_append, List.map_singleton]
      exact
        { framed := fun _ => hframed
          executed_prefix := hprefix
          responder := hresponder
          answered := .inl ⟨by simp, hexecuted.symm, hanswered⟩
          delivered := ⟨reply.encode, howed, fun _ => rfl,
            .inr ⟨reply, List.getLast?_concat, List.suffix_refl _⟩⟩ }
    | none =>
      simp only [Option.elim_none, Option.map_none, Option.toList_none, List.append_nil]
      exact
        { framed := by simp [Phase.isOver]
          executed_prefix := hprefix
          responder := hresponder
          answered := .inr ⟨rfl, hall, frame, hexecuted, congrArg Prod.fst hreplay⟩
          delivered := ⟨[], (List.append_nil _).trans hall, by simp [Phase.isOver], .inl rfl⟩ }

theorem Steady.write (h : worker.Steady engine first stream changes) {rest : Bytes}
    (hphase : worker.phase = .writing rest) (outcome : WriteOutcome) :
    Steady engine first stream changes (worker.write rest outcome) := by
  have hlive : worker.phase.isOver = false := by rw [hphase]; rfl
  have hrest : worker.phase.rest = rest := by rw [hphase]; rfl
  cases outcome with
  | accepted more =>
    have haccepted : worker.delivered ++ rest.take (more + 1) ++ rest.drop (more + 1) =
        worker.delivered ++ worker.phase.rest := by
      rw [List.append_assoc, List.take_append_drop, hrest]
    have hleft : rest.drop (more + 1) <:+ worker.phase.rest := hrest ▸ List.drop_suffix _ _
    exact h.move hlive (by simp) haccepted hleft fun _ => rfl
  | wouldBlock | interrupted => exact h.go_on hlive rfl hrest
  | exhausted | failed => exact h.give_up hlive (by decide)

theorem Steady.take (h : worker.Steady engine first stream changes) (hphase : worker.phase = .reading)
    (bytes : Bytes) :
    Steady engine first (stream ++ bytes) changes
      { worker with framer := worker.framer.push bytes, phase := .framing } := by
  have hlive : worker.phase.isOver = false := by rw [hphase]; rfl
  have hframed := h.framed hlive
  obtain ⟨rest, hdelivered, hrest, hlast⟩ := h.delivered
  refine ⟨fun _ more => ?_, ⟨_, (hframed bytes).symm⟩, h.responder, .inl ⟨nofun, h.all_answered hlive⟩, rest,
    hdelivered, fun _ => ?_, hlast⟩
  · rw [List.append_assoc, hframed, Framer.push_append]
  · rw [hrest hlive, hphase]
    rfl

/-- Whatever the socket does, and whether or not the worker is to stop, it stays steady. -/
theorem Steady.step (h : worker.Steady engine first stream changes) (latency : Span)
    (weather : Weather) :
    Steady engine first (stream ++ worker.intake weather) (changes ++ worker.changing latency)
      (worker.step engine latency weather) := by
  obtain ⟨responder, framer, phase, delivered, served, replies⟩ := worker
  cases phase with
  | framing =>
    simp only [intake, List.append_nil, changing]
    cases hexecuting : executing { responder, framer, phase := .framing, delivered, served, replies } with
    | none =>
      rw [Option.map_none, Option.toList_none, List.append_nil]
      exact h.pass rfl hexecuting latency
    | some frame => exact h.carry_out hexecuting latency weather
  | reading =>
    obtain ⟨stopping, read, write, sleepless⟩ := weather
    simp only [changing, executing, intake, Option.map_none, Option.toList_none, List.append_nil]
    cases read with
    | chunk bytes => exact h.take rfl bytes
    | ended | failed =>
      simp only [List.append_nil]
      exact h.give_up rfl (by decide)
    | wouldBlock | interrupted =>
      simp only [List.append_nil]
      exact h.go_on rfl rfl rfl
  | checking | stuck =>
    obtain ⟨stopping, read, write, sleepless⟩ := weather
    simp only [changing, executing, intake, Option.map_none, Option.toList_none, List.append_nil]
    cases stopping with
    | true => exact h.give_up rfl (by decide)
    | false => exact h.go_on rfl rfl rfl
  | waitingToRead | waitingToWrite =>
    obtain ⟨stopping, read, write, sleepless⟩ := weather
    simp only [changing, executing, intake, Option.map_none, Option.toList_none, List.append_nil]
    cases sleepless with
    | true => exact h.give_up rfl (by decide)
    | false => exact h.go_on rfl rfl rfl
  | writing rest =>
    simp only [changing, executing, intake, Option.map_none, Option.toList_none, List.append_nil]
    cases rest with
    | nil => exact h.go_on rfl rfl rfl
    | cons b rest => exact h.write rfl weather.write
  | _ =>
    simp only [changing, executing, intake, Option.map_none, Option.toList_none, List.append_nil]
    exact h

theorem Steady.meanwhile (h : worker.Steady engine first stream changes) (other : Responder σ) :
    Steady engine first stream (changes ++ [.others other]) { worker with responder := other } := by
  have hreplay : replay engine (changes ++ [.others other]) first =
      ((replay engine changes first).1, other) := by
    rw [replay_append]
    exact Prod.ext (List.append_nil _) rfl
  constructor
  · simpa only [executed_concat_others] using h.framed
  · simpa only [executed_concat_others] using h.executed_prefix
  · rw [hreplay]
  · simpa only [executed_concat_others, hreplay, owed] using h.answered
  · exact h.delivered

/-! ### A whole course -/

theorem Course.steady (h : Course engine first stream changes worker) :
    worker.Steady engine first stream changes := by
  induction h with
  | start => exact steady_start engine first
  | step latency weather _ ih => exact ih.step latency weather
  | meanwhile responder _ ih => exact ih.meanwhile responder

/-! ### Writing one reply -/

theorem Written.step {whole : Bytes} (h : worker.Written whole) (hwriting : worker.phase.isWriting = true)
    (latency : Span) (weather : Weather) : (worker.step engine latency weather).Written whole := by
  obtain ⟨responder, framer, phase, delivered, served, replies⟩ := worker
  cases phase with
  | writing rest =>
    cases rest with
    | nil => exact (List.append_nil delivered).symm.trans h
    | cons b rest =>
      have hrest : delivered ++ b :: rest = whole := h
      obtain ⟨stopping, read, write, sleepless⟩ := weather
      cases write with
      | accepted more =>
        change delivered ++ (b :: rest).take (more + 1) ++ (b :: rest).drop (more + 1) = whole
        rw [List.append_assoc, List.take_append_drop, hrest]
      | wouldBlock => exact ⟨List.cons_ne_nil b rest, hrest⟩
      | interrupted => exact hrest
      | exhausted | failed => exact ⟨b :: rest, List.cons_ne_nil b rest, hrest⟩
  | stuck rest =>
    obtain ⟨stopping, read, write, sleepless⟩ := weather
    cases stopping with
    | true => exact ⟨rest, h⟩
    | false => exact h
  | waitingToWrite rest =>
    obtain ⟨stopping, read, write, sleepless⟩ := weather
    cases sleepless with
    | true => exact ⟨rest, h⟩
    | false => exact h.2
  | _ => cases hwriting

theorem Written.writeAll {whole : Bytes} (h : worker.Written whole) (latency : Span)
    (weathers : List Weather) : (worker.writeAll engine latency weathers).Written whole := by
  induction weathers generalizing worker with
  | nil => exact h
  | cons weather rest ih =>
    rw [Worker.writeAll]
    split
    · rename_i hwriting
      exact ih (h.step hwriting latency weather)
    · exact h

theorem Written.framing_iff {whole : Bytes} (h : worker.Written whole)
    (hended : worker.phase.isWriting = false) : worker.phase = .framing ↔ worker.delivered = whole := by
  obtain ⟨responder, framer, phase, delivered, served, replies⟩ := worker
  -- what is given up before its end is never the whole
  have hlacks : ∀ {rest : Bytes}, rest ≠ [] → delivered ++ rest = whole → delivered ≠ whole := by
    rintro rest hne rfl
    exact fun heq => hne (List.self_eq_append_right.1 heq)
  cases phase with
  | framing => exact iff_of_true rfl h
  | writing | stuck | waitingToWrite => cases hended
  | checking | reading | waitingToRead => cases h
  | _ =>
    rename_i ending
    cases ending with
    | stopped | aborted =>
      obtain ⟨rest, hne, hwhole⟩ := h
      exact iff_of_false nofun (hlacks hne hwhole)
    | finished | dismissed | broken => cases h

/-! ### At any moment -/

theorem Steady.length_executed_le (h : worker.Steady engine first stream changes) :
    (executed changes).length ≤ worker.replies.length + 1 ∧
      (worker.delivered ≠ worker.owed → (executed changes).length = worker.replies.length) := by
  rw [← length_replay engine changes first]
  rcases h.answered with ⟨-, -, hanswers⟩ | ⟨-, hall, frame, -, hanswers⟩
  · rw [hanswers, List.length_map]
    exact ⟨Nat.le_succ _, fun _ => rfl⟩
  · rw [hanswers, List.length_append, List.length_map]
    exact ⟨le_rfl, fun hne => absurd hall hne⟩

/-- If not all has been delivered, then a part of the last reply is left. -/
theorem Steady.last_begun (h : worker.Steady engine first stream changes) :
    worker.delivered = worker.owed ∨ ∃ before reply, worker.replies = before ++ [reply] ∧
      ∃ part, worker.delivered = before.flatMap Reply.encode ++ part := by
  obtain ⟨rest, hdelivered, -, hnil | ⟨reply, hreply, part, hpart⟩⟩ := h.delivered
  · rw [hnil, List.append_nil] at hdelivered
    exact .inl hdelivered
  · obtain ⟨before, hreplies⟩ := List.getLast?_eq_some_iff.1 hreply
    refine .inr ⟨before, reply, hreplies, part, ?_⟩
    rw [owed, hreplies, List.flatMap_append, List.flatMap_singleton, ← hpart, ← List.append_assoc]
      at hdelivered
    exact List.append_cancel_right hdelivered

theorem Steady.faithful (h : worker.Steady engine first stream changes) :
    worker.Faithful engine first stream changes where
  executed_prefix := h.executed_prefix
  responder := h.responder
  answered := by
    rcases h.answered with ⟨-, hanswered⟩ | ⟨hbroken, -, hanswered⟩
    · exact .inl hanswered
    · exact .inr ⟨hbroken, hanswered⟩
  asks_once := by
    intro latency weather frame hframe
    rw [step_of_executing hframe]
    exact ⟨rfl, rfl, rfl⟩
  leaves_be := fun latency weather hnone => step_of_executing_eq_none hnone latency weather
  one_call := by
    intro latency weather
    cases hexecuting : worker.executing with
    | some frame =>
      rw [step_of_executing hexecuting]
      exact Responder.state_serveFrame engine latency frame worker.responder
    | none =>
      rw [(step_of_executing_eq_none hexecuting latency weather).1]
      rfl
  delivered_prefix := by
    obtain ⟨rest, hdelivered, -⟩ := h.delivered
    exact ⟨rest, hdelivered⟩
  all_but_last := by
    rcases h.last_begun with hall | ⟨before, reply, hreplies, part, hpart⟩
    · rw [hall, owed]
      exact List.IsPrefix.flatMap (List.dropLast_prefix worker.replies) Reply.encode
    · rw [hpart, hreplies, List.dropLast_concat]
      exact List.prefix_append _ part
  next_after_delivery := by
    intro frame hframe
    exact h.all_delivered (phase_of_executing hframe)
  at_most_one := by
    obtain ⟨hle, heq⟩ := h.length_executed_le
    by_cases hall : worker.delivered = worker.owed
    · refine ⟨worker.replies.length, hle, le_rfl, ?_⟩
      rw [List.take_length, hall]
      exact List.prefix_refl _
    · obtain ⟨before, reply, hreplies, part, hpart⟩ := h.last_begun.resolve_left hall
      refine ⟨before.length, ?_, ?_, ?_⟩
      · rw [heq hall, hreplies, List.length_append, List.length_singleton]
      · rw [hreplies, List.length_append]
        exact Nat.le_add_right _ _
      · rw [hreplies, List.take_left, hpart]
        exact List.prefix_append _ part
  written := by
    intro reply latency weathers hphase hended
    have hwritten : worker.Written (worker.delivered ++ reply) := by
      rw [Written, hphase]
    exact (hwritten.writeAll latency weathers).framing_iff hended

theorem Course.delivers_in_order (h : Course engine first stream changes worker) :
    worker.Faithful engine first stream changes :=
  h.steady.faithful

/-- A client that sends two lines at once and takes four octets of the first reply before the server stops.
What it deletes, another client has stored meanwhile. -/
theorem Course.delivers_in_order_half_written :
    ∃ (first : Responder Store) (changes : List (Change Store)) (worker : Worker Store),
      Course Store.engine first (Utf8.encode "DELETE k\nREAD k\n") changes worker ∧
      executed changes = [.line (Utf8.encode "DELETE k\n")] ∧ worker.replies = [.deleted] ∧
      worker.delivered = Utf8.encode "DELE" ∧ worker.phase = .over .stopped ∧
      worker.Faithful Store.engine first (Utf8.encode "DELETE k\nREAD k\n") changes := by
  have hstart : Course Store.engine { state := Store.empty 1 Nat.one_pos } [] [] _ := .start
  have hstored := hstart.meanwhile
    (Responder.serveFrame Store.engine {} (.line (Utf8.encode "CREATE k v\n"))
      { state := Store.empty 1 Nat.one_pos }).2
  have hcourse : Course Store.engine _ (Utf8.encode "DELETE k\nREAD k\n") _ _ :=
    (((((hstored.step {} {}).step {} { read := .chunk (Utf8.encode "DELETE k\nREAD k\n") }).step {}
      {}).step {} { write := .accepted 3 }).step {} {}).step {} { stopping := true }
  exact ⟨_, _, _, hcourse, rfl, rfl, rfl, rfl, hcourse.delivers_in_order⟩

end LineStore.Server.Worker
