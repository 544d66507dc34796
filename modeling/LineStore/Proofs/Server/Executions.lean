import LineStore.Proofs.Responder
import LineStore.Server.Course

/-!
What a step of a worker does to its responder.

A step that carries out a frame asks the responder once, and begins to write what it answers. No other step
asks for anything.
-/

namespace LineStore

variable {σ : Type}

/-- To serve a frame is to ask the engine once for the operation of the frame, if it has one. -/
theorem Responder.state_serveFrame (engine : Store.Engine σ) (latency : Span) (frame : Frame)
    (responder : Responder σ) :
    (responder.serveFrame engine latency frame).2.state =
      frame.operation?.elim responder.state fun operation => (engine operation responder.state).2 := by
  rw [serveFrame_eq, Frame.operation?]
  cases readFrame frame with
  | incomplete | invalid => rfl
  | request request =>
    simp only [react, execute]
    cases request.operation? with
    | error fault => rfl
    | ok operation =>
      simp only [Except.toOption, Option.elim_some]
      cases engine operation responder.state with
      | mk verdict state => cases verdict <;> rfl

namespace Server.Worker

variable {engine : Store.Engine σ} {worker : Worker σ} {frame : Frame}

/-! ### Changes of the responder -/

theorem executed_append (changes more : List (Change σ)) :
    executed (changes ++ more) = executed changes ++ executed more :=
  List.filterMap_append

theorem executed_concat_serve (changes : List (Change σ)) (frame : Frame) (latency : Span) :
    executed (changes ++ [.serve frame latency]) = executed changes ++ [frame] :=
  executed_append changes _

theorem executed_concat_others (changes : List (Change σ)) (responder : Responder σ) :
    executed (changes ++ [.others responder]) = executed changes := by
  rw [executed_append]
  exact List.append_nil _

theorem replay_append (engine : Store.Engine σ) (changes more : List (Change σ))
    (responder : Responder σ) :
    replay engine (changes ++ more) responder =
      let before := replay engine changes responder
      let after := replay engine more before.2
      (before.1 ++ after.1, after.2) := by
  induction changes generalizing responder with
  | nil => rfl
  | cons change changes ih =>
    cases change with
    | serve frame latency => simp only [List.cons_append, replay, ih]
    | others other => exact ih other

theorem length_replay (engine : Store.Engine σ) (changes : List (Change σ)) (responder : Responder σ) :
    (replay engine changes responder).1.length = (executed changes).length := by
  induction changes generalizing responder with
  | nil => rfl
  | cons change changes ih =>
    cases change with
    | serve frame latency => exact congrArg (· + 1) (ih _)
    | others other => exact ih other

/-! ### What a step does to the responder -/

theorem phase_of_executing (h : worker.executing = some frame) : worker.phase = .framing := by
  rw [executing] at h
  split at h
  · assumption
  · cases h

theorem next_of_executing (h : worker.executing = some frame) :
    worker.framer.next = (some frame, worker.framer.next.2) ∧ ¬ frame.AsksToClose := by
  simp only [executing, phase_of_executing h, Option.filter_eq_some_iff, decide_eq_true_eq] at h
  exact ⟨Prod.ext h.1 rfl, h.2⟩

theorem step_of_executing (h : worker.executing = some frame) (latency : Span) (weather : Weather) :
    worker.step engine latency weather =
      let answer := worker.responder.serveFrame engine latency frame
      { worker with
        responder := answer.2
        framer := worker.framer.next.2
        phase := answer.1.elim (.over .broken) fun reply => .writing reply.encode
        served := worker.served ++ (answer.1.map fun _ => frame).toList
        replies := worker.replies ++ answer.1.toList } := by
  obtain ⟨hnext, hstays⟩ := next_of_executing h
  rw [step, phase_of_executing h, takeFrame, hnext]
  simp only [if_neg hstays]
  cases worker.responder.serveFrame engine latency frame with
  | mk answer responder =>
    cases answer with
    | some reply => rfl
    | none => simp

/-- A worker that looks for a frame and carries out none reads on, or has been asked to close. -/
theorem takeFrame_of_executing_eq_none (engine : Store.Engine σ) (hphase : worker.phase = .framing)
    (h : worker.executing = none) (latency : Span) :
    ∃ phase, worker.takeFrame engine latency = { worker with framer := worker.framer.next.2, phase } ∧
      (phase = .checking ∧ worker.framer.next.1 = none ∨
        phase = .over .dismissed ∧ ∃ frame, worker.framer.next.1 = some frame ∧ frame.AsksToClose) := by
  simp only [executing, hphase] at h
  rw [takeFrame]
  cases hnext : worker.framer.next with
  | mk frame? framer =>
    rw [hnext] at h
    cases frame? with
    | none => exact ⟨_, rfl, .inl ⟨rfl, rfl⟩⟩
    | some frame =>
      have hclose : frame.AsksToClose := by simpa using h
      exact ⟨_, if_pos hclose, .inr ⟨rfl, frame, rfl, hclose⟩⟩

theorem step_of_executing_eq_none (h : worker.executing = none) (latency : Span) (weather : Weather) :
    (worker.step engine latency weather).responder = worker.responder ∧
      (worker.step engine latency weather).replies = worker.replies := by
  cases hphase : worker.phase with
  | framing =>
    obtain ⟨phase, htake, -⟩ := takeFrame_of_executing_eq_none engine hphase h latency
    rw [step, hphase]
    exact htake ▸ ⟨rfl, rfl⟩
  | reading =>
    rw [step, hphase]
    cases weather.read <;> exact ⟨rfl, rfl⟩
  | writing rest =>
    rw [step, hphase]
    cases rest with
    | nil => exact ⟨rfl, rfl⟩
    | cons b rest =>
      simp only [write]
      cases weather.write <;> exact ⟨rfl, rfl⟩
  | _ =>
    rw [step, hphase]
    exact ⟨rfl, rfl⟩

end Server.Worker

end LineStore
