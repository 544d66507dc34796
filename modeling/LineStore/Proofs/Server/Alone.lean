import LineStore.Proofs.Server.Crews
import LineStore.Proofs.Server.Executions

/-!
A worker of a crew that is left alone does what a worker by itself does.

The worker by itself takes in one step what the worker of the crew takes in several, one for each change of
a counter. In the end the responder, the replies and the place of the worker are the same.
-/

namespace LineStore.Server

variable {σ : Type}

/-- Where a worker is after a reaction to a request. -/
def Seat.ofReaction (framer : Framer) : Reaction → Seat
  | .reply reply => .serving framer (.writing reply.encode)
  | _ => .broken

/-- Where a worker of a crew is that a worker by itself stands for. -/
def Seat.ofWorker (worker : Worker σ) : Seat :=
  if worker.phase = .over .broken then .broken else .serving worker.framer worker.phase

namespace Worker

variable {engine : Store.Engine σ} {worker : Worker σ}

theorem step_of_isOver (h : worker.phase.isOver = true) (latency : Span) (weather : Weather) :
    worker.step engine latency weather = worker := by
  obtain ⟨responder, framer, phase, delivered, served, replies⟩ := worker
  cases phase with
  | checking | reading | waitingToRead | framing | writing | stuck | waitingToWrite => cases h
  | _ => rfl

/-- A step that takes no frame looks at nothing but the framer and the phase, and the engine cannot break down
over it. -/
theorem step_of_phase_ne_framing (engine : Store.Engine σ) (hphase : worker.phase ≠ .framing)
    (hlive : worker.phase.isOver = false) (latency : Span) (weather : Weather) :
    let plain : Worker σ := { responder := worker.responder, framer := worker.framer, phase := worker.phase }
    (worker.step engine latency weather).framer = (plain.step engine latency weather).framer ∧
      (worker.step engine latency weather).phase = (plain.step engine latency weather).phase ∧
      (worker.step engine latency weather).phase ≠ .over .broken := by
  obtain ⟨responder, framer, phase, delivered, served, old⟩ := worker
  cases phase with
  | framing => exact absurd rfl hphase
  | reading =>
    simp only [step]
    cases weather.read <;> exact ⟨rfl, rfl, by simp⟩
  | writing rest =>
    cases rest with
    | nil => exact ⟨rfl, rfl, by simp [step]⟩
    | cons b rest =>
      simp only [step, write]
      cases weather.write <;> exact ⟨rfl, rfl, by simp⟩
  | checking | waitingToRead | stuck | waitingToWrite =>
    refine ⟨rfl, rfl, ?_⟩
    simp only [step]
    split <;> simp
  | _ => cases hlive

end Worker

namespace Crew

variable {engine : Store.Engine σ} {crew after : Crew σ} {worker : Nat} {turn : Turn}

/-- Whether a worker can lead one state to another while no other worker takes a step. -/
def Alone (engine : Store.Engine σ) (worker : Nat) (before after : Crew σ) : Prop :=
  ∃ turns, (∀ turn ∈ turns, turn.worker = worker) ∧ before.actAll engine turns = after

namespace Alone

variable {before middle : Crew σ}

theorem refl (crew : Crew σ) : Alone engine worker crew crew :=
  ⟨[], by simp, rfl⟩

theorem act {turn : Turn} (hact : before.act engine turn = after) :
    Alone engine turn.worker before after :=
  ⟨[turn], by simp, hact⟩

theorem trans (h : Alone engine worker before middle) (h' : Alone engine worker middle after) :
    Alone engine worker before after := by
  obtain ⟨turns, hturns, rfl⟩ := h
  obtain ⟨more, hmore, rfl⟩ := h'
  exact ⟨turns ++ more, List.forall_mem_append.2 ⟨hturns, hmore⟩, List.foldl_append⟩

end Alone

/-- A worker that is left alone makes all changes that are due from it. -/
theorem alone_due {post : Seat} {due : List Telemetry.Update}
    (h : crew.hands[worker]? = some { post, due }) :
    Alone engine worker crew
      { crew with
        responder :=
          { crew.responder with counters := due.foldl Telemetry.Counters.apply crew.counters }
        hands := crew.hands.set worker { post } } := by
  induction due generalizing crew with
  | nil =>
    obtain ⟨hlt, hget⟩ := List.getElem?_eq_some_iff.1 h
    rw [← hget, List.set_getElem_self]
    exact .refl crew
  | cons update rest ih =>
    obtain ⟨hlt, -⟩ := List.getElem?_eq_some_iff.1 h
    have hfirst : crew.act engine { worker } = crew.count worker post update rest := by
      simp only [Crew.act, h]
    have hrest := @ih (crew.count worker post update rest) (List.getElem?_set_self hlt)
    simp only [Crew.count, List.set_set] at hrest
    exact (Alone.act hfirst).trans hrest

/-- What a crew comes to when a worker goes to another post and what happens on the way has been counted. -/
def settle (crew : Crew σ) (worker : Nat) (post : Seat) (events : List Telemetry.Event) : Crew σ :=
  { crew with
    responder :=
      { crew.responder with counters := events.foldl Telemetry.Counters.record crew.counters }
    hands := crew.hands.set worker { post }
    events := crew.events ++ events }

theorem hands_settle (h : worker < crew.hands.length) (post : Seat) (events : List Telemetry.Event) :
    (crew.settle worker post events).hands[worker]? = some { post } :=
  List.getElem?_set_self h

theorem alone_post (h : worker < crew.hands.length) (post : Seat) (events : List Telemetry.Event) :
    Alone engine worker (crew.post worker post events) (crew.settle worker post events) := by
  have hdue : Alone engine worker (crew.post worker post events) _ :=
    alone_due (List.getElem?_set_self h)
  simp only [Crew.post, List.set_set, List.foldl_flatMap] at hdue
  exact hdue

theorem alone_execute {framer : Framer} {reading : Reading} {reaction : Reaction} {state : σ}
    (latency : Span) (h : crew.hands[worker]? = some { post := .executing framer reading })
    (hread : reading ≠ .incomplete)
    (hreact : Responder.react engine reading crew.responder.state = (reaction, state)) :
    ∃ after, Alone engine worker crew after ∧
      after.responder =
        { state
          counters :=
            (Responder.events latency reaction).tail.foldl Telemetry.Counters.record crew.counters } ∧
      after.hands[worker]? = some { post := .ofReaction framer reaction } ∧
      after.replies = crew.replies ++ (Responder.replyOf reaction).toList := by
  obtain ⟨hlt, -⟩ := List.getElem?_eq_some_iff.1 h
  have hact : crew.act engine { worker, latency } =
      crew.execute engine latency worker framer reading := by
    simp only [act, h]
  rw [execute, hreact] at hact
  cases reaction with
  | reply reply =>
    let told : Crew σ :=
      { crew with responder := { crew.responder with state }, replies := crew.replies ++ [reply] }
    have hend : Alone engine worker (told.post worker (.ofReaction framer (.reply reply))
        (Responder.events latency (.reply reply)).tail) _ :=
      alone_post (show worker < told.hands.length from hlt) _ _
    exact ⟨_, (Alone.act hact).trans hend, rfl, List.getElem?_set_self hlt, rfl⟩
  | breakdown =>
    let told : Crew σ :=
      { crew with
        responder := { crew.responder with state }, breakdowns := crew.breakdowns ++ [reading] }
    have hend : Alone engine worker (told.post worker (.ofReaction framer .breakdown)
        (Responder.events latency .breakdown).tail) _ :=
      alone_post (show worker < told.hands.length from hlt) _ _
    exact ⟨_, (Alone.act hact).trans hend, rfl, List.getElem?_set_self hlt, (List.append_nil _).symm⟩
  | wait => exact absurd hreact (Responder.react_ne_wait hread)

/-- A worker that is left alone with a request does with the responder what serving its frame does, and makes
the reply of it. -/
theorem alone_serveFrame {framer framer' : Framer} {frame : Frame} (latency : Span)
    (h : crew.hands[worker]? = some { post := .serving framer .framing })
    (hnext : framer.next = (some frame, framer')) (hstays : ¬ frame.AsksToClose) :
    let served := crew.responder.serveFrame engine latency frame
    ∃ after, Alone engine worker crew after ∧ after.responder = served.2 ∧
      after.hands[worker]? =
        some { post := served.1.elim .broken fun reply => .serving framer' (.writing reply.encode) } ∧
      after.replies = crew.replies ++ served.1.toList := by
  obtain ⟨hlt, -⟩ := List.getElem?_eq_some_iff.1 h
  have hread := Responder.readFrame_ne_incomplete (Framer.whole_of_next (congrArg Prod.fst hnext))
  have hbegin : crew.act engine { worker } =
      crew.post worker (.executing framer' (Responder.readFrame frame)) [.requestStart] := by
    simp only [act, h, takeFrame, hnext, if_neg hstays]
  have hbegun := (Alone.act hbegin).trans (alone_post hlt _ _)
  cases hreact : Responder.react engine (Responder.readFrame frame) crew.responder.state with
  | mk reaction state =>
    obtain ⟨after, hafter, hresponder, hhand, hreplies⟩ :=
      alone_execute latency (hands_settle hlt _ _) hread hreact
    rw [Responder.serveFrame_eq, hreact]
    cases reaction with
    | wait => exact absurd hreact (Responder.react_ne_wait hread)
    | _ => exact ⟨after, hbegun.trans hafter, hresponder, hhand, hreplies⟩

/-- A worker that finds no frame to carry out reads on, or has been asked to close. -/
theorem act_of_executing_eq_none {framer : Framer} {phase : Worker.Phase}
    (h : crew.hands[worker]? = some { post := .serving framer .framing })
    (hnext : phase = .checking ∧ framer.next.1 = none ∨
      phase = .over .dismissed ∧ ∃ frame, framer.next.1 = some frame ∧ frame.AsksToClose) :
    crew.act engine { worker } = crew.post worker (.serving framer.next.2 phase) := by
  simp only [act, h, takeFrame]
  cases hframer : framer.next with
  | mk frame? rest =>
    rw [hframer] at hnext
    rcases hnext with ⟨rfl, rfl⟩ | ⟨rfl, frame, rfl, hclose⟩
    · rfl
    · exact if_pos hclose

/-- A step at the socket is that of a worker by itself. -/
theorem act_of_phase_ne_framing (engine : Store.Engine σ) {framer : Framer} {phase : Worker.Phase}
    (h : crew.hands[worker]? = some { post := .serving framer phase }) (hphase : phase ≠ .framing)
    (hlive : phase.isOver = false) (latency : Span) (weather : Weather) :
    crew.act engine { worker, latency, weather } =
      crew.attend engine { worker, latency, weather } framer phase := by
  cases phase with
  | framing => exact absurd rfl hphase
  | checking | reading | waitingToRead | writing | stuck | waitingToWrite => simp only [act, h]
  | _ => cases hlive

/-- Whether a worker by itself is where a worker of a crew is, with the same responder and the same replies. -/
structure Stands (worker : Nat) (lone : Worker σ) (crew : Crew σ) : Prop where
  hand : crew.hands[worker]? = some { post := .ofWorker lone }
  responder : crew.responder = lone.responder
  replies : crew.replies = lone.replies

namespace Stands

variable {lone next : Worker σ} {frame : Frame}

theorem lt_length (h : Stands worker lone crew) : worker < crew.hands.length :=
  (List.getElem?_eq_some_iff.1 h.hand).1

theorem serving (h : Stands worker lone crew) (hlive : lone.phase.isOver = false) :
    crew.hands[worker]? = some { post := .serving lone.framer lone.phase } := by
  have hsound : lone.phase ≠ .over .broken := by
    intro hbroken
    rw [hbroken] at hlive
    cases hlive
  rw [h.hand, Seat.ofWorker, if_neg hsound]

theorem post (h : Stands worker lone crew) (hresponder : next.responder = lone.responder)
    (hreplies : next.replies = lone.replies) (hsound : next.phase ≠ .over .broken) :
    Stands worker next (crew.post worker (.serving next.framer next.phase)) where
  hand := by
    rw [Seat.ofWorker, if_neg hsound]
    exact List.getElem?_set_self h.lt_length
  responder := h.responder.trans hresponder.symm
  replies := h.replies.trans hreplies.symm

theorem carry_out (h : Stands worker lone crew) (hexecuting : lone.executing = some frame)
    (latency : Span) (weather : Weather) :
    ∃ after, Alone engine worker crew after ∧
      Stands worker (lone.step engine latency weather) after := by
  have hframing := Worker.phase_of_executing hexecuting
  obtain ⟨hnext, hstays⟩ := Worker.next_of_executing hexecuting
  have hhand : crew.hands[worker]? = some { post := .serving lone.framer .framing } := by
    rw [h.serving (by rw [hframing]; rfl), hframing]
  obtain ⟨after, hafter, hresponder, hplace, hreplies⟩ := alone_serveFrame latency hhand hnext hstays
  rw [h.responder] at hresponder hplace hreplies
  rw [h.replies] at hreplies
  rw [Worker.step_of_executing hexecuting]
  refine ⟨after, hafter, hplace.trans ?_, hresponder, hreplies⟩
  cases lone.responder.serveFrame engine latency frame with
  | mk answer responder => cases answer <;> rfl

/-- Every step of a worker by itself is what the worker of a crew comes to that is left alone. -/
theorem step (h : Stands worker lone crew) (engine : Store.Engine σ) (latency : Span)
    (weather : Weather) :
    ∃ after, Alone engine worker crew after ∧
      Stands worker (lone.step engine latency weather) after := by
  cases hlive : lone.phase.isOver with
  | true => exact ⟨crew, .refl crew, by rwa [Worker.step_of_isOver hlive]⟩
  | false =>
    have hhand := h.serving hlive
    cases hexecuting : lone.executing with
    | some frame => exact h.carry_out hexecuting latency weather
    | none =>
      obtain ⟨hresponder, hreplies⟩ := Worker.step_of_executing_eq_none hexecuting latency weather
      by_cases hframing : lone.phase = .framing
      · obtain ⟨phase, htake, hnext⟩ :=
          Worker.takeFrame_of_executing_eq_none engine hframing hexecuting latency
        have hstep : lone.step engine latency weather = { lone with framer := lone.framer.next.2, phase } := by
          rw [Worker.step, hframing, htake]
        have hsound : phase ≠ .over .broken := by
          rcases hnext with ⟨rfl, -⟩ | ⟨rfl, -⟩ <;> simp
        rw [hframing] at hhand
        rw [hstep] at hresponder hreplies ⊢
        exact ⟨_, Alone.act (act_of_executing_eq_none hhand hnext), h.post hresponder hreplies hsound⟩
      · obtain ⟨hframer, hphase, hsound⟩ :=
          Worker.step_of_phase_ne_framing engine hframing hlive latency weather
        have hact := act_of_phase_ne_framing engine hhand hframing hlive latency weather
        rw [attend, h.responder, ← hframer, ← hphase] at hact
        exact ⟨_, Alone.act hact, h.post hresponder hreplies hsound⟩

/-- Whatever a worker by itself comes to, the worker of a crew comes to that is left alone. -/
theorem run (h : Stands worker lone crew) (engine : Store.Engine σ) (latency : Span)
    (weathers : List Weather) :
    ∃ after, Alone engine worker crew after ∧
      Stands worker (lone.run engine latency weathers) after := by
  induction weathers generalizing lone crew with
  | nil => exact ⟨crew, .refl crew, h⟩
  | cons weather weathers ih =>
    obtain ⟨middle, hmiddle, hstands⟩ := h.step engine latency weather
    obtain ⟨after, hafter, hend⟩ := ih hstands
    exact ⟨after, hmiddle.trans hafter, hend⟩

end Stands

end Crew

end LineStore.Server
