import LineStore.Proofs.Counting
import LineStore.Proofs.Responder

/-!
Requests that the engine refuses are answered in their place and leave no trace.

An engine that stands before a store refuses some calls and hands the others on. A run over such an engine
is shadowed by a run of the store alone that skips the frames whose calls are refused: after each frame both
have the same store, and the counters differ by the frames that were skipped.
-/

namespace LineStore

variable {σ : Type}

/-- Whether an engine, which has a store in its state, refuses a call without touching the store or hands
it on to the store. -/
def Store.Fronts (engine : Store.Engine σ) (store : σ → Store) : Prop :=
  ∀ operation state,
    (∃ fault, (engine operation state).1 = .refused fault ∧
      store (engine operation state).2 = store state) ∨
    ((engine operation state).1, store (engine operation state).2) = Store.engine operation (store state)

theorem Store.fronts_fitfulEngine : Store.Fronts Store.fitfulEngine Prod.snd := by
  rintro operation ⟨refusals, store⟩
  rw [fitfulEngine]
  split
  · rename_i fault _
    exact .inl ⟨fault, rfl, rfl⟩
  · exact .inr rfl

namespace Responder

/-- The fault with which the engine refuses the call that a frame leads to, if it does. -/
def refusal? (engine : Store.Engine σ) (frame : Frame) (responder : Responder σ) : Option Fault :=
  match readFrame frame with
  | .request request =>
    match request.operation? with
    | .ok operation =>
      match (engine operation responder.state).1 with
      | .refused fault => some fault
      | _ => none
    | .error _ => none
  | _ => none

/-- The refusals over some frames, frame by frame. -/
def refusals (engine : Store.Engine σ) (latency : Span) : List Frame → Responder σ → List (Option Fault)
  | [], _ => []
  | frame :: rest, responder =>
    responder.refusal? engine frame ::
      refusals engine latency rest (responder.serveFrame engine latency frame).2

/-- Whether two responders are in the same state, apart from what was counted over `refused` frames that
only the first one has served. -/
structure Shadows (store : σ → Store) (refused : Nat) (responder : Responder σ)
    (plain : Responder Store) : Prop where
  state : store responder.state = plain.state
  requests : responder.counters.requests = plain.counters.requests + UInt64.ofNat refused
  errors : responder.counters.errors = plain.counters.errors + UInt64.ofNat refused

variable {engine : Store.Engine σ} {store : σ → Store} {frame : Frame} {responder : Responder σ}
  {plain : Responder Store} {fault : Fault} {refused : Nat}

/-! ### One frame -/

/-- A refusal does not touch the store. -/
theorem react_of_refusal?_eq_some (h : Store.Fronts engine store)
    (hrefusal : responder.refusal? engine frame = some fault) :
    (react engine (readFrame frame) responder.state).1 = .reply .internalError ∧
      store (react engine (readFrame frame) responder.state).2 = store responder.state := by
  rw [refusal?] at hrefusal
  cases hread : readFrame frame with
  | incomplete | invalid => simp [hread] at hrefusal
  | request request =>
    cases hasks : request.operation? with
    | error => simp [hread, hasks] at hrefusal
    | ok operation =>
      simp only [react, execute, hasks]
      rcases h operation responder.state with ⟨other, hrefused, hstore⟩ | hsame
      · cases hcall : engine operation responder.state with
        | mk verdict state =>
          rw [hcall] at hrefused hstore
          cases hrefused
          exact ⟨rfl, hstore⟩
      · have hdone := congrArg Prod.fst hsame
        simp only [Store.engine] at hdone
        simp [hread, hasks, hdone] at hrefusal

/-- Other frames are answered as by the store alone. -/
theorem react_of_refusal?_eq_none (h : Store.Fronts engine store)
    (hnone : responder.refusal? engine frame = none) :
    (react engine (readFrame frame) responder.state).1 =
        (react Store.engine (readFrame frame) (store responder.state)).1 ∧
      store (react engine (readFrame frame) responder.state).2 =
        (react Store.engine (readFrame frame) (store responder.state)).2 := by
  rw [refusal?] at hnone
  cases hread : readFrame frame with
  | incomplete | invalid => exact ⟨rfl, rfl⟩
  | request request =>
    simp only [react, execute]
    cases hasks : request.operation? with
    | error => exact ⟨rfl, rfl⟩
    | ok operation =>
      -- a call that was refused would have shown
      rcases h operation responder.state with ⟨fault, hrefused, -⟩ | hsame
      · simp [hread, hasks, hrefused] at hnone
      · simp only [← hsame]
        cases engine operation responder.state with
        | mk verdict state => cases verdict <;> exact ⟨rfl, rfl⟩

/-- What is counted over a reaction does not depend on what was counted before. -/
theorem exists_counted (latency : Span) (reaction : Reaction) :
    ∃ requests errors : UInt64, ∀ counters : Telemetry.Counters,
      ((events latency reaction).foldl .record counters).requests = counters.requests + requests ∧
        ((events latency reaction).foldl .record counters).errors = counters.errors + errors := by
  cases reaction with
  | wait =>
    exact ⟨0, 0, fun counters => ⟨counters.requests.add_zero.symm, counters.errors.add_zero.symm⟩⟩
  | breakdown => exact ⟨1, 0, fun counters => ⟨rfl, counters.errors.add_zero.symm⟩⟩
  | reply reply =>
    simp only [events]
    cases reply.isError with
    | true => exact ⟨1, 1, fun counters => ⟨rfl, rfl⟩⟩
    | false => exact ⟨1, 0, fun counters => ⟨rfl, counters.errors.add_zero.symm⟩⟩

/-- A refused frame is answered so, counted as a request and as an error, and leaves the store alone. -/
theorem Shadows.serveFrame_refused (hfronts : Store.Fronts engine store)
    (h : Shadows store refused responder plain) (latency : Span)
    (hrefusal : responder.refusal? engine frame = some fault) :
    (responder.serveFrame engine latency frame).1 = some .internalError ∧
      Shadows store (refused + 1) (responder.serveFrame engine latency frame).2 plain := by
  obtain ⟨hreaction, hstate⟩ := react_of_refusal?_eq_some hfronts hrefusal
  simp only [serveFrame_eq, hreaction]
  refine ⟨rfl, hstate.trans h.state, ?_, ?_⟩
  · rw [UInt64.ofNat_add, ← UInt64.add_assoc, ← h.requests]
    rfl
  · rw [UInt64.ofNat_add, ← UInt64.add_assoc, ← h.errors]
    rfl

theorem Shadows.serveFrame (hfronts : Store.Fronts engine store)
    (h : Shadows store refused responder plain) (latency : Span)
    (hnone : responder.refusal? engine frame = none) :
    (responder.serveFrame engine latency frame).1 = (plain.serveFrame Store.engine latency frame).1 ∧
      Shadows store refused (responder.serveFrame engine latency frame).2
        (plain.serveFrame Store.engine latency frame).2 := by
  obtain ⟨hreaction, hstate⟩ := react_of_refusal?_eq_none hfronts hnone
  rw [h.state] at hreaction hstate
  simp only [serveFrame_eq, hreaction]
  obtain ⟨requests, errors, hcounted⟩ :=
    exists_counted latency (react Store.engine (readFrame frame) plain.state).1
  refine ⟨trivial, hstate, ?_, ?_⟩
  · simp only [(hcounted _).1, h.requests]
    rw [UInt64.add_assoc, UInt64.add_assoc, UInt64.add_comm requests]
  · simp only [(hcounted _).2, h.errors]
    rw [UInt64.add_assoc, UInt64.add_assoc, UInt64.add_comm errors]

/-! ### A run -/

theorem Shadows.serveFrames (hfronts : Store.Fronts engine store)
    (h : Shadows store refused responder plain) (latency : Span) (frames : List Frame) :
    let faults := refusals engine latency frames responder
    let run := Responder.serveFrames engine latency frames responder
    let plainRun := Responder.serveFrames Store.engine latency (pick (faults.map Option.isNone) frames) plain
    pick (faults.map Option.isNone) run.1 = plainRun.1 ∧
      Shadows store (refused + faults.countP Option.isSome) run.2 plainRun.2 := by
  induction frames generalizing responder plain refused with
  | nil => exact ⟨rfl, h⟩
  | cons frame rest ih =>
    simp only [refusals, Responder.serveFrames, List.map_cons, List.countP_cons]
    cases hrefusal : responder.refusal? engine frame with
    | none =>
      obtain ⟨hreply, hafter⟩ := h.serveFrame hfronts latency hrefusal
      obtain ⟨hreplies, hlast⟩ := ih hafter
      exact ⟨congrArg₂ List.cons hreply hreplies, hlast⟩
    | some fault =>
      obtain ⟨-, hafter⟩ := h.serveFrame_refused hfronts latency hrefusal
      obtain ⟨hreplies, hlast⟩ := ih hafter
      refine ⟨hreplies, ?_⟩
      rwa [Nat.add_right_comm] at hlast

theorem shadows_refl (store : σ → Store) (responder : Responder σ) :
    Shadows store 0 responder { state := store responder.state, counters := responder.counters } where
  state := rfl
  requests := responder.counters.requests.add_zero.symm
  errors := responder.counters.errors.add_zero.symm

theorem length_refusals (engine : Store.Engine σ) (latency : Span) (frames : List Frame)
    (responder : Responder σ) : (refusals engine latency frames responder).length = frames.length := by
  induction frames generalizing responder with
  | nil => rfl
  | cons frame rest ih => exact congrArg Nat.succ (ih _)

/-- What becomes of a refused frame, and of the responder while it is served. -/
theorem serveFrames_refused (hfronts : Store.Fronts engine store) (latency : Span) {frames : List Frame}
    {i : Nat} (h : (refusals engine latency frames responder)[i]? = some (some fault)) :
    let before := (serveFrames engine latency (frames.take i) responder).2
    let after := (serveFrames engine latency (frames.take (i + 1)) responder).2
    (serveFrames engine latency frames responder).1[i]? = some (some .internalError) ∧
      store after.state = store before.state ∧
      after.counters.requests = before.counters.requests + 1 ∧
      after.counters.errors = before.counters.errors + 1 := by
  induction frames generalizing responder i with
  | nil => cases h
  | cons frame rest ih =>
    cases i with
    | zero =>
      obtain ⟨hreply, hafter⟩ :=
        (shadows_refl store responder).serveFrame_refused hfronts latency (Option.some.inj h)
      exact ⟨congrArg some hreply, hafter.state, hafter.requests, hafter.errors⟩
    | succ i => exact ih h

/-- Over an engine that refuses some calls, each frame whose call is refused is answered in its place and
counted once as a request and once as an error. Apart from these frames the run is the run of the store
alone over the others: it makes the same replies and ends with the same store. -/
theorem serveFrames_refusals (hfronts : Store.Fronts engine store) (latency : Span) (frames : List Frame)
    (responder : Responder σ) :
    let faults := refusals engine latency frames responder
    let granted := faults.map Option.isNone
    let run := serveFrames engine latency frames responder
    let plain := serveFrames Store.engine latency (pick granted frames)
      { state := store responder.state, counters := responder.counters }
    faults.length = frames.length ∧
      (∀ (i : Nat) (fault : Fault), faults[i]? = some (some fault) →
        let before := (serveFrames engine latency (frames.take i) responder).2
        let after := (serveFrames engine latency (frames.take (i + 1)) responder).2
        run.1[i]? = some (some .internalError) ∧ store after.state = store before.state ∧
          after.counters.requests = before.counters.requests + 1 ∧
          after.counters.errors = before.counters.errors + 1) ∧
      pick granted run.1 = plain.1 ∧ store run.2.state = plain.2.state ∧
      run.2.counters.requests =
        plain.2.counters.requests + UInt64.ofNat (faults.countP Option.isSome) ∧
      run.2.counters.errors = plain.2.counters.errors + UInt64.ofNat (faults.countP Option.isSome) := by
  intro faults granted run plain
  obtain ⟨hreplies, hlast⟩ := (shadows_refl store responder).serveFrames hfronts latency frames
  rw [Nat.zero_add] at hlast
  exact ⟨length_refusals engine latency frames responder,
    fun _ _ hrefusal => serveFrames_refused hfronts latency hrefusal, hreplies, hlast.state,
    hlast.requests, hlast.errors⟩

/-- An update that is refused between the creation of its key and a read, which tells the old value. -/
theorem serveFrames_refusals_update :
    ∃ run : List (Option Reply) × Responder (List (Option Fault) × Store),
      serveFrames Store.fitfulEngine {}
          [.line (Utf8.encode "CREATE k v\n"), .line (Utf8.encode "UPDATE k w\n"),
            .line (Utf8.encode "READ k\n")]
          { state := ([none, some .outOfMemory], Store.empty 1 Nat.one_pos) } = run ∧
        run.1 = [some .created, some .internalError, some (.value "v")] ∧
        run.1[1]? = some (some .internalError) ∧
        pick [true, false, true] run.1 =
          (serveFrames Store.engine {} [.line (Utf8.encode "CREATE k v\n"), .line (Utf8.encode "READ k\n")]
            { state := Store.empty 1 Nat.one_pos }).1 ∧
        run.2.counters.errors = 1 := by
  obtain ⟨-, hrefused, hreplies, -, -, herrors⟩ :=
    serveFrames_refusals Store.fronts_fitfulEngine {}
      [.line (Utf8.encode "CREATE k v\n"), .line (Utf8.encode "UPDATE k w\n"),
        .line (Utf8.encode "READ k\n")]
      { state := ([none, some .outOfMemory], Store.empty 1 Nat.one_pos) }
  exact ⟨_, rfl, rfl, (hrefused 1 .outOfMemory rfl).1, hreplies, herrors⟩

end Responder

end LineStore
