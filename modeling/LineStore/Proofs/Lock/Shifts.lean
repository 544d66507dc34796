import LineStore.Lock.Crowd
import Mathlib.Logic.Relation

/-!
What the actions of a crowd do to its lock, taken apart.

A segment does up to three things one after another: a writer that arrives first counts as waiting for
room, then draws a ticket, then takes the lock. Each of these is a shift. What every shift of a thread
preserves is preserved by every action, and an action is never looked into again.
-/

namespace LineStore.Lock

/-- A change of the lock together with the stage of the thread that makes it. -/
inductive Shift (capacity : Nat) : State × Stage → State × Stage → Prop where
  | announce {lock : State} :
      Shift capacity (lock, .away)
        ({ lock with readersPresent := lock.readersPresent + 1 }, .awaitingRead)
  | startRead {lock : State} (hfree : lock.writersActive = 0) :
      Shift capacity (lock, .awaitingRead) (lock, .reading)
  | arrive {lock : State} :
      Shift capacity (lock, .away) ({ lock with slotWaiters := lock.slotWaiters + 1 }, .awaitingSlot)
  | draw {lock : State} (hroom : lock.ring.length < capacity) :
      Shift capacity (lock, .awaitingSlot)
        ({ lock with
            slotWaiters := lock.slotWaiters - 1
            nextTicket := lock.nextTicket + 1
            ring := lock.ring ++ [lock.nextTicket] },
          .awaitingTurn lock.nextTicket)
  | startWrite {lock : State} {ticket : Ticket} (hhead : lock.ring.head? = some ticket)
      (hnone : lock.readersPresent = 0) :
      Shift capacity (lock, .awaitingTurn ticket) ({ lock with writersActive := 1 }, .writing ticket)
  | leaveRead {lock : State} :
      Shift capacity (lock, .reading)
        ({ lock with readersPresent := lock.readersPresent - 1 }, .away)
  | leaveWrite {lock : State} {ticket : Ticket} :
      Shift capacity (lock, .writing ticket)
        ({ lock with writersActive := 0, ring := lock.ring.tail }, .away)

abbrev Shifts (capacity : Nat) : State × Stage → State × Stage → Prop :=
  Relation.ReflTransGen (Shift capacity)

/-- Any number of shifts of one thread that does not have the lock, up to the one by which it gets it. -/
abbrev Advances (capacity : Nat) : State × Stage → State × Stage → Prop :=
  Relation.ReflTransGen fun before after => Shift capacity before after ∧ before.2.holds = false

variable {capacity : Nat} {lock : State}

theorem Advances.shifts {before after : State × Stage} (h : Advances capacity before after) :
    Shifts capacity before after :=
  Relation.ReflTransGen.mono (fun _ _ hshift => hshift.1) _ _ h

/-- What each of the changes that a thread makes one after another keeps, all of them together keep. -/
theorem keep_of_reflTransGen {R : State × Stage → State × Stage → Prop}
    {P : State → List Stage → Prop} {stages : List Stage} {i : Nat} {old : Stage}
    {outcome : State × Stage}
    (hstep : ∀ {lock stages old after}, P lock stages → stages[i]? = some old → R (lock, old) after →
      P after.1 (stages.set i after.2))
    (h : P lock stages) (hi : stages[i]? = some old)
    (hmoves : Relation.ReflTransGen R (lock, old) outcome) :
    P outcome.1 (stages.set i outcome.2) := by
  have hlt := (List.getElem?_eq_some_iff.1 hi).1
  induction hmoves with
  | refl =>
    obtain ⟨-, rfl⟩ := List.getElem?_eq_some_iff.1 hi
    rwa [List.set_getElem_self]
  | tail _ hmove ih =>
    have hnext := hstep ih (List.getElem?_set_self hlt) hmove
    rwa [List.set_set] at hnext

/-! ## Segments -/

namespace State

theorem retryRead_advances : Advances capacity (lock, .awaitingRead) lock.retryRead := by
  by_cases hfree : lock.writersActive = 0
  · simp only [retryRead, hfree, ne_eq, not_true, ↓reduceIte]
    exact .single ⟨.startRead hfree, rfl⟩
  · simp only [retryRead, hfree, ne_eq, not_false_eq_true, ↓reduceIte]
    exact .refl

theorem retryTurn_advances {ticket : Ticket} :
    Advances capacity (lock, .awaitingTurn ticket) (lock.retryTurn ticket) := by
  rw [retryTurn]
  split
  · exact .refl
  · rename_i h
    obtain ⟨hhead, hnone⟩ := not_or.1 h
    exact .single ⟨.startWrite (Decidable.not_not.1 hhead) (Nat.eq_zero_of_not_pos hnone), rfl⟩

theorem retrySlot_advances (hpos : 0 < lock.slotWaiters) :
    Advances capacity (lock, .awaitingSlot) (lock.retrySlot capacity) := by
  by_cases hfull : capacity ≤ lock.ring.length
  · have hback : lock.slotWaiters - 1 + 1 = lock.slotWaiters := Nat.sub_add_cancel hpos
    simp only [retrySlot, enterWrite, hfull, ↓reduceIte, hback]
    exact .refl
  · simp only [retrySlot, enterWrite, hfull, ↓reduceIte]
    exact .head ⟨.draw (Nat.not_le.1 hfull), rfl⟩ retryTurn_advances

/-- A writer that arrives is one that counts as waiting for room and looks for it at once. -/
theorem enterWrite_eq_retrySlot :
    lock.enterWrite capacity =
      retrySlot capacity { lock with slotWaiters := lock.slotWaiters + 1 } := by
  simp only [retrySlot, Nat.add_sub_cancel]

theorem enter_advances (access : Access) :
    Advances capacity (lock, .away) (lock.enter capacity access) := by
  cases access with
  | read => exact .head ⟨.announce, rfl⟩ retryRead_advances
  | write =>
    simp only [enter, enterWrite_eq_retrySlot]
    exact .head ⟨.arrive, rfl⟩ (retrySlot_advances (Nat.succ_pos _))

theorem retry_advances {stage : Stage} (hslot : stage = .awaitingSlot → 0 < lock.slotWaiters) :
    Advances capacity (lock, stage) (lock.retry capacity stage) := by
  cases stage with
  | awaitingRead => exact retryRead_advances
  | awaitingSlot => exact retrySlot_advances (hslot rfl)
  | awaitingTurn ticket => exact retryTurn_advances
  | away | reading | writing ticket => exact .refl

theorem leave_shift {stage : Stage} (hholds : stage.holds = true) :
    Shift capacity (lock, stage) ((lock.leave stage).1, .away) := by
  cases stage with
  | reading => exact .leaveRead
  | writing ticket => exact .leaveWrite
  | away | awaitingRead | awaitingSlot | awaitingTurn ticket => cases hholds

end State

/-! ## Actions -/

namespace Crowd

def stages (crowd : Crowd) : List Stage :=
  crowd.members.map Member.stage

theorem stages_getElem? (crowd : Crowd) (thread : Nat) :
    crowd.stages[thread]? = crowd.members[thread]?.map Member.stage :=
  List.getElem?_map

theorem stageOf_of_stages {crowd : Crowd} {thread : Nat} {stage : Stage}
    (h : crowd.stages[thread]? = some stage) : crowd.stageOf thread = stage := by
  rw [stages_getElem?] at h
  obtain ⟨member, hmember, rfl⟩ := Option.map_eq_some_iff.1 h
  rw [stageOf, hmember]
  rfl

theorem mem_stages {crowd : Crowd} {stage : Stage} :
    stage ∈ crowd.stages ↔ ∃ member ∈ crowd.members, member.stage = stage :=
  List.mem_map

@[simp] theorem ofStage_stage (stage : Stage) : (Member.ofStage stage).stage = stage := rfl

theorem move_stages (crowd : Crowd) (thread : Nat) (outcome : State × Stage) :
    (crowd.move thread outcome).stages = crowd.stages.set thread outcome.2 := by
  simp only [stages, move, List.map_set, ofStage_stage]

theorem hear_stages (members : List Member) (thread : Nat) (wakes : Wakes) :
    ((members.set thread {}).map (·.hear wakes)).map Member.stage =
      (members.map Member.stage).set thread .away := by
  simp only [List.map_map, List.map_set]
  rfl

variable {crowd after : Crowd} {action : Action}

theorem act_cases (h : crowd.act action = some after) :
    ∃ member, crowd.members[action.thread]? = some member ∧
      ((∃ access, action = .acquire action.thread access ∧ member.stage = .away ∧
          after = crowd.move action.thread (crowd.lock.enter crowd.capacity access)) ∨
        (action = .release action.thread ∧ member.stage.holds = true ∧
          after =
            { crowd with
              lock := (crowd.lock.leave member.stage).1
              members := (crowd.members.set action.thread {}).map
                (·.hear (crowd.lock.leave member.stage).2) }) ∨
        (action = .resume action.thread ∧ member.awake = true ∧
          after = crowd.move action.thread (crowd.lock.retry crowd.capacity member.stage)) ∨
        (action = .rouse action.thread ∧ member.parked = true ∧
          after =
            { crowd with members := crowd.members.set action.thread { member with parked := false } })) := by
  cases action with
  | acquire thread access =>
    simp only [act] at h
    split at h
    · rename_i member hmember
      split at h
      · rename_i haway
        cases h
        exact ⟨member, hmember, .inl ⟨access, rfl, haway, rfl⟩⟩
      · cases h
    · cases h
  | release thread =>
    simp only [act] at h
    split at h
    · rename_i member hmember
      split at h
      · rename_i hholds
        cases h
        exact ⟨member, hmember, .inr (.inl ⟨rfl, hholds, rfl⟩)⟩
      · cases h
    · cases h
  | resume thread =>
    simp only [act] at h
    split at h
    · rename_i member hmember
      split at h
      · rename_i hawake
        cases h
        exact ⟨member, hmember, .inr (.inr (.inl ⟨rfl, hawake, rfl⟩))⟩
      · cases h
    · cases h
  | rouse thread =>
    simp only [act] at h
    split at h
    · rename_i member hmember
      split at h
      · rename_i hparked
        cases h
        exact ⟨member, hmember, .inr (.inr (.inr ⟨rfl, hparked, rfl⟩))⟩
      · cases h
    · cases h

/-- An action changes the lock and the stage of its own thread, and no other stage. -/
theorem act_stages (h : crowd.act action = some after) :
    ∃ old new, crowd.stages[action.thread]? = some old ∧
      after.stages = crowd.stages.set action.thread new ∧ after.capacity = crowd.capacity ∧
      ((∃ access, old = .away ∧ (after.lock, new) = crowd.lock.enter crowd.capacity access) ∨
        (old.holds = true ∧ (after.lock, new) = ((crowd.lock.leave old).1, .away)) ∨
        (after.lock, new) = crowd.lock.retry crowd.capacity old ∨
        (after.lock, new) = (crowd.lock, old)) := by
  obtain ⟨member, hmember, hact⟩ := act_cases h
  have hold : crowd.stages[action.thread]? = some member.stage := by
    rw [stages_getElem?, hmember]
    rfl
  rcases hact with ⟨access, -, haway, rfl⟩ | ⟨-, hholds, rfl⟩ | ⟨-, -, rfl⟩ | ⟨-, -, rfl⟩
  · exact ⟨_, _, hold, move_stages .., rfl, .inl ⟨access, haway, rfl⟩⟩
  · exact ⟨_, .away, hold, hear_stages .., rfl, .inr (.inl ⟨hholds, rfl⟩)⟩
  · exact ⟨_, _, hold, move_stages .., rfl, .inr (.inr (.inl rfl))⟩
  · refine ⟨_, member.stage, hold, ?_, rfl, .inr (.inr (.inr rfl))⟩
    simp only [stages, List.map_set]

/-- The thread of an action comes nearer to the lock or gives it up. -/
theorem act_advances (hslot : .awaitingSlot ∈ crowd.stages → 0 < crowd.lock.slotWaiters)
    (h : crowd.act action = some after) :
    ∃ old new, crowd.stages[action.thread]? = some old ∧
      after.stages = crowd.stages.set action.thread new ∧ after.capacity = crowd.capacity ∧
      (Advances crowd.capacity (crowd.lock, old) (after.lock, new) ∨
        Shift crowd.capacity (crowd.lock, old) (after.lock, new)) := by
  obtain ⟨old, new, hold, hstages, hcapacity, hmoves⟩ := act_stages h
  refine ⟨old, new, hold, hstages, hcapacity, ?_⟩
  rcases hmoves with ⟨access, rfl, heq⟩ | ⟨hholds, heq⟩ | heq | heq
  · exact .inl (heq ▸ State.enter_advances access)
  · exact .inr (heq ▸ State.leave_shift hholds)
  · exact .inl (heq ▸ State.retry_advances fun hstage => hslot (hstage ▸ List.mem_of_getElem? hold))
  · exact .inl (heq ▸ .refl)

theorem act_shifts (hslot : .awaitingSlot ∈ crowd.stages → 0 < crowd.lock.slotWaiters)
    (h : crowd.act action = some after) :
    ∃ old new, crowd.stages[action.thread]? = some old ∧
      after.stages = crowd.stages.set action.thread new ∧ after.capacity = crowd.capacity ∧
      Shifts crowd.capacity (crowd.lock, old) (after.lock, new) := by
  obtain ⟨old, new, hold, hstages, hcapacity, hadvances | hshift⟩ := act_advances hslot h
  · exact ⟨old, new, hold, hstages, hcapacity, hadvances.shifts⟩
  · exact ⟨old, new, hold, hstages, hcapacity, .single hshift⟩

end Crowd

end LineStore.Lock
