import LineStore.Proofs.Lock.Wakeups

/-!
The access that a thread asks for is the one that it waits for and is granted, and a writer has its lock
alone.
-/

namespace LineStore.Lock

/-- The access that a thread at this stage has asked for. -/
def Stage.access? : Stage → Option Access
  | away => none
  | awaitingRead | reading => some .read
  | awaitingSlot | awaitingTurn _ | writing _ => some .write

theorem Stage.access?_eq_none_iff {stage : Stage} : stage.access? = none ↔ stage = .away := by
  cases stage <;> simp [access?]

theorem Stage.writing_of_access? {stage : Stage} (haccess : stage.access? = some .write)
    (hholds : stage.holds = true) : ∃ ticket, stage = .writing ticket := by
  cases stage with
  | writing ticket => exact ⟨ticket, rfl⟩
  | reading => cases haccess
  | away | awaitingRead | awaitingSlot | awaitingTurn ticket => cases hholds

theorem Stage.reading_of_access? {stage : Stage} (haccess : stage.access? = some .read)
    (hholds : stage.holds = true) : stage = .reading := by
  cases stage with
  | reading => rfl
  | writing ticket => cases haccess
  | away | awaitingRead | awaitingSlot | awaitingTurn ticket => cases hholds

theorem Stage.writing_of_writes {stage : Stage} (h : stage.writes = true) :
    ∃ ticket, stage = .writing ticket := by
  cases stage with
  | writing ticket => exact ⟨ticket, rfl⟩
  | _ => cases h

theorem Stage.writes_eq_false_of_holds {stage : Stage} (h : stage.holds = false) :
    stage.writes = false := by
  cases stage with
  | reading | writing ticket => cases h
  | away | awaitingRead | awaitingSlot | awaitingTurn ticket => rfl

theorem Stage.holds_eq_false_of_waits {stage : Stage} (h : stage.waits = true) :
    stage.holds = false := by
  cases stage with
  | awaitingRead | awaitingSlot | awaitingTurn ticket => rfl
  | away | reading | writing ticket => cases h

/-! ### Segments -/

namespace State

variable {capacity : Nat} {lock : State}

theorem retryRead_access : lock.retryRead.2.access? = some .read := by
  rw [retryRead]
  split <;> rfl

theorem retryTurn_access {ticket : Ticket} : (lock.retryTurn ticket).2.access? = some .write := by
  rw [retryTurn]
  split <;> rfl

theorem enterWrite_access : (lock.enterWrite capacity).2.access? = some .write := by
  rw [enterWrite]
  split
  · rfl
  · exact retryTurn_access

theorem enter_access (access : Access) : (lock.enter capacity access).2.access? = some access := by
  cases access with
  | read => exact retryRead_access
  | write => exact enterWrite_access

theorem retry_access (stage : Stage) : (lock.retry capacity stage).2.access? = stage.access? := by
  cases stage with
  | awaitingRead => exact retryRead_access
  | awaitingSlot => exact enterWrite_access
  | awaitingTurn ticket => exact retryTurn_access
  | away | reading | writing ticket => rfl

theorem Blocks.waits {stage : Stage} (h : lock.Blocks capacity stage) : stage.waits = true := by
  cases stage with
  | awaitingRead | awaitingSlot | awaitingTurn ticket => rfl
  | away | reading | writing ticket => exact h.elim

/-- A thread that writes is the only one that has the lock. -/
theorem Sound.alone {stages : List Stage} {i j : Nat} {ticket : Ticket} {stage : Stage}
    (h : lock.Sound capacity stages) (hword : capacity < UInt64.size)
    (hi : stages[i]? = some (.writing ticket)) (hj : stages[j]? = some stage)
    (hholds : stage.holds = true) : i = j := by
  cases stage with
  | reading => exact absurd (List.mem_of_getElem? hj) (h.apart ticket (List.mem_of_getElem? hi))
  | writing other => exact eq_of_countP_le_one (h.countP_writes_le hword) hi rfl hj rfl
  | away | awaitingRead | awaitingSlot | awaitingTurn own => cases hholds

end State

/-! ### Actions -/

/-- What an action can make of the stage of its thread. Only who waits looks again, and nobody asks for one
access and gets the other. -/
def Action.Leads (action : Action) (before after : Stage) : Prop :=
  match action with
  | acquire _ access => before = .away ∧ after.access? = some access
  | release _ => before.holds = true ∧ after = .away
  | resume _ | rouse _ => before.waits = true ∧ after.access? = before.access?

namespace Crowd

variable {capacity count : Nat} {crowd after : Crowd} {thread other : Nat}

theorem stageOf_eq (crowd : Crowd) (thread : Nat) :
    crowd.stageOf thread = crowd.stages[thread]?.getD .away := by
  rw [stageOf, stages_getElem?]
  cases crowd.members[thread]? <;> rfl

theorem getElem?_stages_of_ne_away (h : crowd.stageOf thread ≠ .away) :
    crowd.stages[thread]? = some (crowd.stageOf thread) := by
  rw [stageOf_eq] at h ⊢
  cases hget : crowd.stages[thread]? with
  | none =>
    rw [hget] at h
    exact absurd rfl h
  | some stage => rfl

theorem Reachable.alone (hword : capacity < UInt64.size) (h : Reachable capacity count crowd)
    (hwrite : (crowd.stageOf thread).access? = some .write)
    (hthread : (crowd.stageOf thread).holds = true) (hother : (crowd.stageOf other).holds = true) :
    thread = other := by
  have hpresent : ∀ number, (crowd.stageOf number).holds = true →
      crowd.stages[number]? = some (crowd.stageOf number) := by
    intro number hholds
    refine getElem?_stages_of_ne_away fun haway => ?_
    rw [haway] at hholds
    cases hholds
  obtain ⟨hcapacity, hsound⟩ := h.sound hword
  obtain ⟨ticket, hwriting⟩ := Stage.writing_of_access? hwrite hthread
  have hget := hpresent thread hthread
  rw [hwriting] at hget
  rw [← hcapacity] at hword
  exact hsound.alone hword hget (hpresent other hother) hother

variable {action : Action}

theorem Reachable.length_stages (hword : capacity < UInt64.size) (h : Reachable capacity count crowd) :
    crowd.stages.length = count := by
  induction h with
  | start => simp [stages, ofSize]
  | step hbefore hstep ih =>
    obtain ⟨action, hact⟩ := hstep
    obtain ⟨old, new, -, hstages, -⟩ := act_shifts (hbefore.sound hword).2.slotWaiters_pos hact
    rw [hstages, List.length_set, ih]

theorem Reachable.lt_of_act (hword : capacity < UInt64.size) (h : Reachable capacity count crowd)
    (hact : crowd.act action = some after) : action.thread < count := by
  obtain ⟨old, new, hold, -⟩ := act_stages hact
  rw [← h.length_stages hword]
  exact (List.getElem?_eq_some_iff.1 hold).1

theorem stageOf_act_of_ne (hword : capacity < UInt64.size) (h : Reachable capacity count crowd)
    (hact : crowd.act action = some after) (hne : other ≠ action.thread) :
    after.stageOf other = crowd.stageOf other := by
  obtain ⟨old, new, -, hstages, -⟩ := act_shifts (h.sound hword).2.slotWaiters_pos hact
  rw [stageOf_eq, stageOf_eq, hstages, List.getElem?_set_ne hne.symm]

theorem stageOf_of_members {member : Member} (h : crowd.members[thread]? = some member) :
    crowd.stageOf thread = member.stage := by
  rw [stageOf, h]
  rfl

theorem act_leads (hwatchful : crowd.Watchful) (hact : crowd.act action = some after) :
    action.Leads (crowd.stageOf action.thread) (after.stageOf action.thread) := by
  obtain ⟨member, hmember, hcases⟩ := act_cases hact
  generalize action.thread = thread at hmember hcases ⊢
  have hlt := (List.getElem?_eq_some_iff.1 hmember).1
  have hset : ∀ new, (crowd.members.set thread new)[thread]? = some new := fun new =>
    List.getElem?_set_self hlt
  rw [stageOf_of_members hmember]
  rcases hcases with ⟨access, rfl, haway, rfl⟩ | ⟨rfl, hholds, rfl⟩ | ⟨rfl, hawake, rfl⟩ |
    ⟨rfl, hparked, rfl⟩
  · rw [stageOf_of_members (hset _)]
    exact ⟨haway, State.enter_access access⟩
  · refine ⟨hholds, ?_⟩
    rw [stageOf_of_members ((List.getElem?_map ..).trans (congrArg _ (hset {})))]
    rfl
  · rw [stageOf_of_members (hset _)]
    exact ⟨(Bool.and_eq_true_iff.1 hawake).1, State.retry_access _⟩
  · rw [stageOf_of_members (hset _)]
    exact ⟨(hwatchful member (List.mem_of_getElem? hmember) hparked).waits, rfl⟩

end Crowd

end LineStore.Lock
