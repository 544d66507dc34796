import LineStore.Proofs.Lock.Exclusion

/-!
A parked thread could not go on if it looked.

`State.Blocks` says of a stage at which threads wait that the lock keeps them there. A thread parks only
where it is blocked, what others do towards the lock never unblocks it, and who leaves the lock wakes
all those that this unblocks. So nobody sleeps through the moment at which the lock is theirs.
-/

namespace LineStore.Lock

/-- Whether a thread that waits at this stage would go on waiting if it looked again. -/
def State.Blocks (capacity : Nat) (lock : State) : Stage → Prop
  | .awaitingRead => lock.writersActive ≠ 0
  | .awaitingSlot => capacity ≤ lock.ring.length
  | .awaitingTurn ticket => lock.ring.head? ≠ some ticket ∨ 0 < lock.readersPresent
  | _ => False

namespace State

variable {capacity : Nat} {lock : State} {stage : Stage}

/-! ## Parking -/

theorem retryRead_blocks (h : lock.retryRead.2.waits = true) :
    lock.retryRead.1.Blocks capacity lock.retryRead.2 := by
  rw [retryRead] at h ⊢
  split
  · assumption
  · rename_i hfree
    simp [hfree, Stage.waits] at h

theorem retryTurn_blocks {ticket : Ticket} (h : (lock.retryTurn ticket).2.waits = true) :
    (lock.retryTurn ticket).1.Blocks capacity (lock.retryTurn ticket).2 := by
  rw [retryTurn] at h ⊢
  split
  · assumption
  · rename_i hturn
    rw [if_neg hturn] at h
    cases h

theorem enterWrite_blocks (h : (lock.enterWrite capacity).2.waits = true) :
    (lock.enterWrite capacity).1.Blocks capacity (lock.enterWrite capacity).2 := by
  rw [enterWrite] at h ⊢
  split
  · assumption
  · rename_i hroom
    rw [if_neg hroom] at h
    exact retryTurn_blocks h

theorem enter_blocks {access : Access} (h : (lock.enter capacity access).2.waits = true) :
    (lock.enter capacity access).1.Blocks capacity (lock.enter capacity access).2 := by
  cases access with
  | read => exact retryRead_blocks h
  | write => exact enterWrite_blocks h

theorem retry_blocks (hwaits : stage.waits = true) (h : (lock.retry capacity stage).2.waits = true) :
    (lock.retry capacity stage).1.Blocks capacity (lock.retry capacity stage).2 := by
  cases stage with
  | awaitingRead => exact retryRead_blocks h
  | awaitingSlot => exact enterWrite_blocks h
  | awaitingTurn ticket => exact retryTurn_blocks h
  | away | reading | writing ticket => cases hwaits

/-! ## What others do -/

/-- A thread that comes nearer to the lock unblocks nobody, and takes no ticket off the ring. -/
theorem Blocks.shift {lock' : State} {old new : Stage} (h : lock.Blocks capacity stage)
    (hring : ∀ ticket, stage = .awaitingTurn ticket → ticket ∈ lock.ring)
    (hshift : Shift capacity (lock, old) (lock', new)) (hold : old.holds = false) :
    lock'.Blocks capacity stage ∧ ∀ ticket, stage = .awaitingTurn ticket → ticket ∈ lock'.ring := by
  cases hshift with
  | startRead | arrive => exact ⟨h, hring⟩
  | announce =>
    refine ⟨?_, hring⟩
    cases stage with
    | awaitingTurn ticket => exact .inr (Nat.succ_pos _)
    | _ => exact h
  | startWrite =>
    refine ⟨?_, hring⟩
    cases stage with
    | awaitingRead => exact Nat.one_ne_zero
    | _ => exact h
  | draw =>
    refine ⟨?_, fun ticket hstage => List.mem_append_left _ (hring ticket hstage)⟩
    cases stage with
    | awaitingSlot =>
      have hfull : capacity ≤ lock.ring.length := h
      simp only [Blocks, List.length_append]
      omega
    | awaitingTurn ticket =>
      have hhead : (lock.ring ++ [lock.nextTicket]).head? = lock.ring.head? :=
        List.head?_append_of_ne_nil _ (List.ne_nil_of_mem (hring ticket rfl))
      simp only [Blocks, hhead]
      exact h
    | _ => exact h
  | leaveRead | leaveWrite => cases hold

theorem Blocks.advances {before after : State × Stage} (hadvances : Advances capacity before after)
    (hring : ∀ ticket, stage = .awaitingTurn ticket → ticket ∈ before.1.ring)
    (h : before.1.Blocks capacity stage) : after.1.Blocks capacity stage := by
  suffices hboth : after.1.Blocks capacity stage ∧
      ∀ ticket, stage = .awaitingTurn ticket → ticket ∈ after.1.ring from hboth.1
  induction hadvances with
  | refl => exact ⟨h, hring⟩
  | tail _ hshift ih => exact ih.1.shift ih.2 hshift.1 hshift.2

/-! ## Who leaves -/

/-- A last reader wakes the writers, if there are any. -/
theorem Blocks.leaveRead (h : lock.Blocks capacity stage)
    (hdeaf : lock.leaveRead.2.reaches stage = false) : lock.leaveRead.1.Blocks capacity stage := by
  cases stage with
  | awaitingTurn ticket =>
    rcases h with hhead | hpresent
    · exact .inl hhead
    · by_cases hlast : lock.readersPresent - 1 = 0
      · have hring : lock.ring = [] := by simpa [State.leaveRead, Wakes.reaches, hlast] using hdeaf
        refine .inl ?_
        simp [State.leaveRead, hring]
      · exact .inr (Nat.pos_of_ne_zero hlast)
  | _ => exact h

/-- A writer that leaves wakes the readers that are announced and the writers that wait for the place
it frees; and the queued writers, unless there are readers. -/
theorem Blocks.leaveWrite {stages : List Stage} (hsound : lock.Sound capacity stages)
    (hmem : stage ∈ stages) (h : lock.Blocks capacity stage)
    (hdeaf : lock.leaveWrite.2.reaches stage = false) : lock.leaveWrite.1.Blocks capacity stage := by
  cases stage with
  | awaitingRead =>
    have hpresent : 0 < lock.readersPresent := by
      rw [hsound.readers]
      exact List.countP_pos_iff.2 ⟨_, hmem, rfl⟩
    simp [State.leaveWrite, Wakes.reaches, hpresent] at hdeaf
  | awaitingSlot =>
    have hseeks := hsound.slotWaiters_pos hmem
    simp [State.leaveWrite, Wakes.reaches] at hdeaf
    omega
  | awaitingTurn ticket =>
    simp [State.leaveWrite, Wakes.reaches] at hdeaf
    by_cases hpresent : lock.readersPresent = 0
    · refine .inl ?_
      simp [State.leaveWrite, hdeaf.1 hpresent]
    · exact .inr (Nat.pos_of_ne_zero hpresent)
  | away | reading | writing ticket => exact h.elim

theorem Blocks.leave {stages : List Stage} {holder : Stage} (hsound : lock.Sound capacity stages)
    (hmem : stage ∈ stages) (h : lock.Blocks capacity stage)
    (hdeaf : (lock.leave holder).2.reaches stage = false) :
    (lock.leave holder).1.Blocks capacity stage := by
  cases holder with
  | reading => exact h.leaveRead hdeaf
  | writing ticket => exact h.leaveWrite hsound hmem hdeaf
  | _ => exact h

/-! ## Rest -/

namespace Sound

variable {stages : List Stage} (h : lock.Sound capacity stages)
  (hblocks : ∀ stage ∈ stages, stage.waits = true → lock.Blocks capacity stage)
  (hidle : lock.writersActive = 0) (hreading : .reading ∉ stages)
include h hblocks hidle hreading

theorem readersPresent_eq_zero : lock.readersPresent = 0 := by
  rw [h.readers]
  refine List.countP_eq_zero.2 fun stage hmem hreads => ?_
  cases stage with
  | awaitingRead => exact hblocks _ hmem rfl hidle
  | reading => exact hreading hmem
  | _ => cases hreads

/-- The thread with the ticket at the head of the ring could not be blocked. -/
theorem ring_eq_nil : lock.ring = [] := by
  cases hring : lock.ring with
  | nil => rfl
  | cons ticket rest =>
    have howned : 0 < stages.countP (Stage.owns ticket) := by
      rw [← h.owners, hring]
      exact List.count_pos_iff.2 List.mem_cons_self
    obtain ⟨stage, hmem, howns⟩ := List.countP_pos_iff.1 howned
    cases stage with
    | awaitingTurn own =>
      have hown : own = ticket := by simpa [Stage.owns, Stage.ticket?] using howns
      rcases hblocks _ hmem rfl with hhead | hpresent
      · rw [hring, hown] at hhead
        exact absurd rfl hhead
      · rw [h.readersPresent_eq_zero hblocks hidle hreading] at hpresent
        cases hpresent
    | writing own =>
      rw [h.writers] at hidle
      exact absurd rfl (List.countP_eq_zero.1 hidle _ hmem)
    | _ => simp [Stage.owns, Stage.ticket?] at howns

end Sound

end State

/-! ## Crowds -/

namespace Crowd

/-- Every parked thread is blocked. -/
def Watchful (crowd : Crowd) : Prop :=
  ∀ member ∈ crowd.members, member.parked = true → crowd.lock.Blocks crowd.capacity member.stage

variable {capacity count : Nat} {crowd after : Crowd} {action : Action}

/-- A segment in which a thread goes towards the lock leaves every parked thread blocked, the thread
itself included. -/
theorem Watchful.move {thread : Nat} {stage : Stage} {outcome : State × Stage}
    (h : crowd.Watchful) (hsound : crowd.lock.Sound crowd.capacity crowd.stages)
    (hadvances : Advances crowd.capacity (crowd.lock, stage) outcome)
    (hparks : outcome.2.waits = true → outcome.1.Blocks crowd.capacity outcome.2) :
    (crowd.move thread outcome).Watchful := by
  intro other hother hparked
  rcases List.mem_or_eq_of_mem_set hother with hmem | rfl
  · refine State.Blocks.advances hadvances (fun ticket hstage => hsound.mem_ring ?_)
      (h other hmem hparked)
    exact mem_stages.2 ⟨other, hmem, hstage⟩
  · exact hparks hparked

theorem Watchful.act (hsound : crowd.lock.Sound crowd.capacity crowd.stages) (h : crowd.Watchful)
    (hact : crowd.act action = some after) : after.Watchful := by
  obtain ⟨member, hmember, hcases⟩ := act_cases hact
  have hmem : member ∈ crowd.members := List.mem_of_getElem? hmember
  rcases hcases with ⟨access, -, -, rfl⟩ | ⟨-, -, rfl⟩ | ⟨-, hawake, rfl⟩ | ⟨-, -, rfl⟩
  · exact h.move hsound (State.enter_advances access) State.enter_blocks
  · intro other hother hparked
    obtain ⟨before, hbefore, rfl⟩ := List.mem_map.1 hother
    simp only [Member.hear, Bool.and_eq_true, Bool.not_eq_true'] at hparked
    rcases List.mem_or_eq_of_mem_set hbefore with hold | rfl
    · exact (h before hold hparked.1).leave hsound (mem_stages.2 ⟨before, hold, rfl⟩) hparked.2
    · cases hparked.1
  · have hwaits : member.stage.waits = true := (Bool.and_eq_true_iff.1 hawake).1
    refine h.move hsound (State.retry_advances fun hstage => ?_) (State.retry_blocks hwaits)
    exact hsound.slotWaiters_pos (mem_stages.2 ⟨member, hmem, hstage⟩)
  · intro other hother hparked
    rcases List.mem_or_eq_of_mem_set hother with hold | rfl
    · exact h other hold hparked
    · cases hparked

theorem Reachable.watchful (hword : capacity < UInt64.size) (h : Reachable capacity count crowd) :
    crowd.Watchful := by
  induction h with
  | start =>
    intro member hmem hparked
    cases List.eq_of_mem_replicate hmem
    cases hparked
  | step hbefore hstep ih =>
    obtain ⟨action, hact⟩ := hstep
    exact ih.act (hbefore.sound hword).2 hact

theorem Settled.parked (h : crowd.Settled) :
    ∀ member ∈ crowd.members, member.stage.waits = true → member.parked = true := by
  intro member hmember hwaits
  have hstill := h member hmember
  rwa [Member.awake, hwaits, Bool.true_and, Bool.not_eq_false'] at hstill

/-! ## No deadlock -/

section

variable (h : crowd.Watchful) (hsound : crowd.lock.Sound crowd.capacity crowd.stages)
  (hfree : ∀ member ∈ crowd.members, member.stage.holds = false)
  (hparked : ∀ member ∈ crowd.members, member.stage.waits = true → member.parked = true)

include hsound hfree in
theorem writersActive_eq_zero_of_free : crowd.lock.writersActive = 0 := by
  rw [hsound.writers]
  refine List.countP_eq_zero.2 fun stage hmem hwrites => ?_
  obtain ⟨member, hmember, rfl⟩ := mem_stages.1 hmem
  have hholds := hfree member hmember
  cases hstage : member.stage <;> simp_all [Stage.writes, Stage.holds]

include h hparked in
theorem Watchful.blocks {stage : Stage} (hmem : stage ∈ crowd.stages) (hwaits : stage.waits = true) :
    crowd.lock.Blocks crowd.capacity stage := by
  obtain ⟨member, hmember, rfl⟩ := mem_stages.1 hmem
  exact h member hmember (hparked member hmember hwaits)

include h hsound hfree hparked

/-- Where nobody has the lock and all that wait are parked, nobody waits. -/
theorem Watchful.waits_eq_false (hpos : 0 < crowd.capacity) {stage : Stage}
    (hmem : stage ∈ crowd.stages) : stage.waits = false := by
  have hblocks (stage : Stage) (hmem : stage ∈ crowd.stages) (hwaits : stage.waits = true) :=
    h.blocks hparked hmem hwaits
  have hidle := writersActive_eq_zero_of_free hsound hfree
  have hreading : .reading ∉ crowd.stages := by
    intro hmem
    obtain ⟨member, hmember, hstage⟩ := mem_stages.1 hmem
    have hholds := hfree member hmember
    rw [hstage] at hholds
    cases hholds
  have hring := hsound.ring_eq_nil hblocks hidle hreading
  cases stage with
  | awaitingRead => exact absurd hidle (hblocks _ hmem rfl)
  | awaitingSlot =>
    have hfull : crowd.capacity ≤ crowd.lock.ring.length := hblocks _ hmem rfl
    rw [hring, List.length_nil] at hfull
    omega
  | awaitingTurn ticket =>
    have hin := hsound.mem_ring hmem
    rw [hring] at hin
    cases hin
  | _ => rfl

end

theorem Watchful.reason (hword : crowd.capacity < UInt64.size)
    (hsound : crowd.lock.Sound crowd.capacity crowd.stages) (h : crowd.Watchful) {member : Member}
    (hmember : member ∈ crowd.members) (hparked : member.parked = true) :
    (member.stage = .awaitingRead → crowd.lock.writersActive = 1) ∧
      (∀ ticket, member.stage = .awaitingTurn ticket → crowd.lock.ring.head? = some ticket →
        0 < crowd.lock.readersPresent) ∧
      (member.stage = .awaitingSlot → crowd.lock.ring.length = crowd.capacity) := by
  have hblocks := h member hmember hparked
  refine ⟨fun hstage => ?_, fun ticket hstage hhead => ?_, fun hstage => ?_⟩
  · rw [hstage] at hblocks
    have hactive : crowd.lock.writersActive ≠ 0 := hblocks
    have hone := hsound.countP_writes_le hword
    rw [← hsound.writers] at hone
    omega
  · rw [hstage] at hblocks
    exact hblocks.resolve_left fun hother => hother hhead
  · rw [hstage] at hblocks
    exact Nat.le_antisymm hsound.length_le hblocks

/-- No wake-up is lost, in any order of the steps of any number of threads. A parked reader waits for an
active writer, a parked writer with the ticket at the head of the ring waits for announced readers, and
a writer parked outside the ring finds it full. So a lock that nobody has, and at which nobody looks
again, is a lock for which nobody waits. -/
theorem Reachable.no_lost_wakeup (hpos : 0 < capacity) (hword : capacity < UInt64.size)
    (h : Reachable capacity count crowd) :
    (∀ member ∈ crowd.members, member.parked = true →
      (member.stage = .awaitingRead → crowd.lock.writersActive = 1) ∧
      (∀ ticket, member.stage = .awaitingTurn ticket → crowd.lock.ring.head? = some ticket →
        0 < crowd.lock.readersPresent) ∧
      (member.stage = .awaitingSlot → crowd.lock.ring.length = crowd.capacity)) ∧
    ((∀ member ∈ crowd.members, member.stage.holds = false) → crowd.Settled →
      ∀ member ∈ crowd.members, member.stage.waits = false) := by
  obtain ⟨hcapacity, hsound⟩ := h.sound hword
  have hwatchful := h.watchful hword
  rw [← hcapacity] at hpos hword
  refine ⟨fun member => hwatchful.reason hword hsound, fun hfree hsettled member hmember => ?_⟩
  exact hwatchful.waits_eq_false hsound hfree hsettled.parked hpos (mem_stages.2 ⟨member, hmember, rfl⟩)

/-- A writer with the lock, a reader that waits for it, and a writer that waits for the only place in the
ring. Both are parked for good reason. -/
theorem Reachable.no_lost_wakeup_contended :
    ∃ crowd, Reachable 1 3 crowd ∧
      crowd.members = [⟨.writing 0, false⟩, ⟨.awaitingRead, true⟩, ⟨.awaitingSlot, true⟩] ∧
      crowd.lock.writersActive = 1 ∧ crowd.lock.ring.length = crowd.capacity :=
  have h : Reachable 1 3 _ :=
    .step (.step (.step .start ⟨.acquire 0 .write, rfl⟩) ⟨.acquire 1 .read, rfl⟩)
      ⟨.acquire 2 .write, rfl⟩
  have hreason := (Reachable.no_lost_wakeup (by decide) (by decide) h).1
  ⟨_, h, rfl, (hreason ⟨.awaitingRead, true⟩ (by decide) rfl).1 rfl,
    (hreason ⟨.awaitingSlot, true⟩ (by decide) rfl).2.2 rfl⟩

end Crowd

end LineStore.Lock
