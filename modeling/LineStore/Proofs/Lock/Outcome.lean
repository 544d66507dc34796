import LineStore.Proofs.Lock.Access
import LineStore.Proofs.Lock.Standings

/-!
What becomes of a lock after one request, whoever looks first.

The threads that a request wakes look again in any order, as often as they like, and parked ones may wake
for no reason in between. `State.Heads` says what all these states have in common: what is still to follow,
by the direct description, and the number of the first ticket. Once no woken thread is left, nothing is
still to follow, so there is one such state.
-/

namespace LineStore.Lock

/-- Whether an action is one that a thread takes of its own accord. -/
def Action.isRequest : Action → Bool
  | acquire .. | release _ => true
  | resume _ | rouse _ => false

variable {capacity count : Nat} {goal : Direct} {first : Ticket}

/-! ### One thread -/

/-- A lock and its threads on the way to `goal`. -/
structure State.Heads (capacity : Nat) (goal : Direct) (first : Ticket) (lock : State)
    (stages : List Stage) : Prop where
  sound : lock.Sound capacity stages
  lone : stages.countP Stage.seeks ≤ 1
  first_eq : lock.firstTicket = first
  view : ∃ direct : Direct, direct.Views capacity lock stages ∧ direct.outcome = goal

namespace State

variable {lock lock' : State} {stages : List Stage} {old new : Stage} {i : Nat}

theorem Heads.shift (h : lock.Heads capacity goal first stages) (hword : capacity < UInt64.size)
    (hi : stages[i]? = some old) (hwaits : old.waits = true)
    (hshift : Shift capacity (lock, old) (lock', new)) :
    lock'.Heads capacity goal first (stages.set i new) where
  sound := h.sound.shift hword hi hshift
  lone := by
    have hlone := h.lone
    have hset := countP_set_add Stage.seeks new hi
    cases hshift with
    | announce | arrive | leaveRead | leaveWrite => cases hwaits
    | startRead | draw | startWrite =>
      simp [Stage.seeks] at hset ⊢
      omega
  first_eq := (firstTicket_shift hwaits hshift).trans h.first_eq
  view := by
    obtain ⟨direct, hviews, houtcome⟩ := h.view
    obtain ⟨after, hafter, hsame⟩ := hviews.shift h.sound hword h.lone hi hwaits hshift
    exact ⟨after, hafter, hsame.trans houtcome⟩

/-- On its way to the lock a thread waits until it has it. -/
theorem waiting_of_advances {before after : State × Stage} (hadvances : Advances capacity before after)
    (hwaits : before.2.waits = true) :
    Relation.ReflTransGen (fun before after => Shift capacity before after ∧ before.2.waits = true)
      before after ∧ after.2 ≠ .away := by
  induction hadvances with
  | refl =>
    refine ⟨.refl, fun heq => ?_⟩
    rw [heq] at hwaits
    cases hwaits
  | @tail between after _ hmove ih =>
    obtain ⟨hpath, haway⟩ := ih
    obtain ⟨hshift, hholds⟩ := hmove
    have hstill : between.2.waits = true := by
      cases hstage : between.2 <;> simp_all [Stage.holds, Stage.waits]
    refine ⟨hpath.tail ⟨hshift, hstill⟩, ?_⟩
    cases hshift <;> simp_all [Stage.waits]

theorem Heads.advances (h : lock.Heads capacity goal first stages) (hword : capacity < UInt64.size)
    (hi : stages[i]? = some old) (hwaits : old.waits = true) {outcome : State × Stage}
    (hadvances : Advances capacity (lock, old) outcome) :
    outcome.1.Heads capacity goal first (stages.set i outcome.2) :=
  keep_of_reflTransGen (fun h hi hmove => h.shift hword hi hmove.2 hmove.1) h hi
    (waiting_of_advances hadvances hwaits).1

theorem Heads.views (h : lock.Heads capacity goal first stages)
    (hblocks : ∀ stage ∈ stages, stage.waits = true → lock.Blocks capacity stage) :
    goal.Views capacity lock stages := by
  obtain ⟨direct, hviews, rfl⟩ := h.view
  rwa [hviews.outcome_eq_of_blocks h.sound hblocks]

end State

/-! ### Looking again -/

namespace Crowd

variable {crowd before after other : Crowd} {action : Action}

/-- A woken thread looks again, or a parked one wakes although nobody called it. -/
def Stirs (before after : Crowd) : Prop :=
  ∃ thread, before.act (.resume thread) = some after ∨ before.act (.rouse thread) = some after

/-- A crowd on the way to `goal`. -/
structure Heads (goal : Direct) (first : Ticket) (crowd : Crowd) : Prop where
  word : crowd.capacity < UInt64.size
  watchful : crowd.Watchful
  lock : crowd.lock.Heads crowd.capacity goal first crowd.stages

theorem Heads.act (h : before.Heads goal first) (hact : before.act action = some after)
    (hwaits : (before.stageOf action.thread).waits = true) : after.Heads goal first := by
  have hsound := h.lock.sound
  obtain ⟨old, new, hold, hstages, hcapacity, hmoves⟩ := act_advances hsound.slotWaiters_pos hact
  rw [stageOf_of_stages hold] at hwaits
  refine ⟨hcapacity ▸ h.word, h.watchful.act hsound hact, ?_⟩
  rw [hstages, hcapacity]
  rcases hmoves with hadvances | hshift
  · exact h.lock.advances h.word hold hwaits hadvances
  · exact h.lock.shift h.word hold hwaits hshift

theorem Heads.stirs (h : before.Heads goal first) (hstirs : Relation.ReflTransGen Stirs before after) :
    after.Heads goal first := by
  induction hstirs with
  | refl => exact h
  | tail _ hstir ih =>
    obtain ⟨thread, hact | hact⟩ := hstir
    · exact ih.act hact (act_leads ih.watchful hact).1
    · exact ih.act hact (act_leads ih.watchful hact).1

/-- Once all that wait are parked, the stages tell who is parked. -/
theorem members_eq_of_settled (hwatchful : crowd.Watchful) (hsettled : crowd.Settled) :
    crowd.members = crowd.stages.map Member.ofStage := by
  rw [stages, List.map_map]
  conv_lhs => rw [← List.map_id crowd.members]
  refine List.map_congr_left fun member hmem => ?_
  have hparked : member.parked = member.stage.waits := by
    cases hwaits : member.stage.waits with
    | true => exact hsettled.parked member hmem hwaits
    | false =>
      -- who does not wait is not blocked, and so not parked
      refine Bool.eq_false_iff.2 fun hparked => ?_
      rw [(hwatchful member hmem hparked).waits] at hwaits
      cases hwaits
  simp only [id, Function.comp_apply, Member.ofStage, ← hparked]

theorem Heads.eq_of_settled (h : crowd.Heads goal first) (hother : other.Heads goal first)
    (hsettled : crowd.Settled) (hsettled' : other.Settled) : crowd = other := by
  have hviews := h.lock.views fun _ => h.watchful.blocks hsettled.parked
  have hviews' := hother.lock.views fun _ => hother.watchful.blocks hsettled'.parked
  have hcapacity : crowd.capacity = other.capacity := hviews.capacity_eq.symm.trans hviews'.capacity_eq
  rw [← hcapacity] at hviews'
  obtain ⟨hlock, hstages⟩ := hviews.scene_eq hviews' h.lock.sound (hcapacity ▸ hother.lock.sound) h.word
    (h.lock.first_eq.trans hother.lock.first_eq.symm)
  have hmembers : crowd.members = other.members := by
    rw [members_eq_of_settled h.watchful hsettled, members_eq_of_settled hother.watchful hsettled', hstages]
  obtain ⟨_, _, _⟩ := crowd
  obtain ⟨_, _, _⟩ := other
  cases hcapacity
  cases hlock
  cases hmembers
  rfl

/-! ### Letting all look again -/

theorem stirs_resume (crowd : Crowd) (thread : Nat) :
    Relation.ReflTransGen Stirs crowd (crowd.resume thread) := by
  rw [resume]
  cases hact : crowd.act (.resume thread) with
  | none => exact .refl
  | some after => exact .single ⟨thread, .inl hact⟩

theorem stirs_settle (crowd : Crowd) : Relation.ReflTransGen Stirs crowd crowd.settle := by
  rw [settle]
  generalize List.range crowd.members.length = threads
  induction threads generalizing crowd with
  | nil => exact .refl
  | cons thread threads ih => exact (stirs_resume crowd thread).trans (ih _)

theorem awake_ofStage (stage : Stage) : (Member.ofStage stage).awake = false := by
  cases h : stage.waits <;> simp [Member.awake, Member.ofStage, h]

/-- Who is awake after a thread has looked again is another thread, and was awake before. -/
theorem awake_of_resume {thread i : Nat} {member : Member}
    (hi : (crowd.resume thread).members[i]? = some member) (hawake : member.awake = true) :
    i ≠ thread ∧ crowd.members[i]? = some member := by
  rw [resume] at hi
  cases hact : crowd.act (.resume thread) with
  | none =>
    rw [hact] at hi
    refine ⟨?_, hi⟩
    rintro rfl
    rw [Option.getD_none] at hi
    simp [act, hi, hawake] at hact
  | some after =>
    rw [hact, Option.getD_some] at hi
    obtain ⟨before, hbefore, ⟨_, h, _⟩ | ⟨h, _⟩ | ⟨-, -, rfl⟩ | ⟨h, _⟩⟩ := act_cases hact
    · cases h
    · cases h
    · change (crowd.members.set thread _)[i]? = some member at hi
      by_cases heq : thread = i
      · subst heq
        have hlt : thread < crowd.members.length := (List.getElem?_eq_some_iff.1 hbefore).1
        rw [List.getElem?_set_self hlt, Option.some_inj] at hi
        rw [← hi, awake_ofStage] at hawake
        cases hawake
      · rw [List.getElem?_set_ne heq] at hi
        exact ⟨Ne.symm heq, hi⟩
    · cases h

theorem awake_of_foldl_resume {i : Nat} {member : Member} (threads : List Nat)
    (hi : (threads.foldl resume crowd).members[i]? = some member) (hawake : member.awake = true) :
    i ∉ threads ∧ crowd.members[i]? = some member := by
  induction threads generalizing crowd with
  | nil => exact ⟨List.not_mem_nil, hi⟩
  | cons thread threads ih =>
    obtain ⟨hnot, hbetween⟩ := ih hi
    obtain ⟨hne, hbefore⟩ := awake_of_resume hbetween hawake
    exact ⟨List.not_mem_cons_of_ne_of_not_mem hne hnot, hbefore⟩

theorem settled_settle (crowd : Crowd) : crowd.settle.Settled := by
  intro member hmem
  refine Bool.eq_false_iff.2 fun hawake => ?_
  obtain ⟨i, hi⟩ := List.mem_iff_getElem?.1 hmem
  obtain ⟨hnot, hbefore⟩ := awake_of_foldl_resume _ hi hawake
  exact hnot (List.mem_range.2 (List.getElem?_eq_some_iff.1 hbefore).1)

end Crowd

/-! ### One request -/

/-- Where a thread that asks for access would wait first. -/
def Access.asking : Access → Stage
  | read => .awaitingRead
  | write => .awaitingSlot

theorem State.enter_asks {lock : State} (access : Access) :
    ∃ lock', Shift capacity (lock, .away) (lock', access.asking) ∧
      Advances capacity (lock', access.asking) (lock.enter capacity access) := by
  cases access with
  | read => exact ⟨_, .announce, retryRead_advances⟩
  | write =>
    simp only [enter, enterWrite_eq_retrySlot]
    exact ⟨_, .arrive, retrySlot_advances (Nat.succ_pos _)⟩

theorem Direct.request_acquire {direct : Direct} {thread : Nat} (access : Access)
    (h : direct.standings[thread]? = some .away) :
    direct.request (.acquire thread access) =
      some (direct.place thread (.ofStage access.asking)) := by
  cases access <;> simp [request, h, Access.asking, Standing.ofStage]

section

variable {direct : Direct} {lock : State} {stages : List Stage} {old : Stage} {i : Nat}
  (hviews : direct.Views capacity lock stages) (hsound : lock.Sound capacity stages)
  (hword : capacity < UInt64.size)
include hviews hsound hword

theorem State.heads_enter (access : Access) (hi : stages[i]? = some .away)
    (hlone : (stages.set i access.asking).countP Stage.seeks ≤ 1) :
    (lock.enter capacity access).1.Heads capacity (direct.place i (.ofStage access.asking)).outcome
      lock.firstTicket (stages.set i (lock.enter capacity access).2) := by
  -- the first shift is the request, and what comes after it would follow of itself
  obtain ⟨lock', hshift, hadvances⟩ := @enter_asks capacity lock access
  generalize access.asking = asking at hshift hadvances hlone ⊢
  have hset : (stages.set i asking)[i]? = some asking :=
    List.getElem?_set_self (List.getElem?_eq_some_iff.1 hi).1
  have hwaits : asking.waits = true := by cases hshift <;> rfl
  have hasked : lock'.Heads capacity (direct.place i (.ofStage asking)).outcome lock.firstTicket
      (stages.set i asking) := by
    refine ⟨hsound.shift hword hi hshift, hlone, ?_, _, hviews.place hi ?_ ?_, rfl⟩ <;>
      cases hshift <;> rfl
  have houtcome := hasked.advances hword hset hwaits hadvances
  rwa [List.set_set] at houtcome

theorem State.heads_leave (hi : stages[i]? = some old) (hholds : old.holds = true)
    (hlone : (stages.set i .away).countP Stage.seeks ≤ 1) :
    ∃ asked first, direct.request (.release i) = some asked ∧
      (lock.leave old).1.Heads capacity asked.outcome first (stages.set i .away) := by
  have hleft := hsound.shift hword hi (leave_shift hholds)
  have hstanding := hviews.standing hi
  cases old with
  | reading =>
    refine ⟨direct.place i .away, _, ?_, hleft, hlone, rfl, _, hviews.place hi rfl rfl, rfl⟩
    simp [Direct.request, hstanding, Standing.ofStage]
  | writing ticket =>
    refine ⟨{ direct.place i .away with queue := direct.queue.tail }, _, ?_, hleft, hlone, rfl, _,
      hviews.leaveWrite hsound hword hi, rfl⟩
    simp [Direct.request, hstanding, Standing.ofStage]
  | away | awaitingRead | awaitingSlot | awaitingTurn ticket => cases hholds

end

namespace Crowd

variable {crowd begun : Crowd} {action : Action}

/-- A writer that asks for the lock is the only one outside, if it stays outside. Otherwise there was
room, and nobody was. -/
theorem lone_asking {thread : Nat} (access : Access) (hwatchful : crowd.Watchful)
    (hsettled : crowd.Settled) (hi : crowd.stages[thread]? = some .away)
    (hlone : (crowd.stages.set thread (crowd.lock.enter crowd.capacity access).2).countP Stage.seeks ≤ 1) :
    (crowd.stages.set thread access.asking).countP Stage.seeks ≤ 1 := by
  have hset := countP_set_add Stage.seeks access.asking hi
  cases access with
  | read =>
    have hset' := countP_set_add Stage.seeks (crowd.lock.enter crowd.capacity .read).2 hi
    simp [Stage.seeks, Access.asking] at hset hset' ⊢
    omega
  | write =>
    by_cases hfull : crowd.capacity ≤ crowd.lock.ring.length
    · rwa [State.enter, State.enterWrite, if_pos hfull] at hlone
    · have hnone : crowd.stages.countP Stage.seeks = 0 := by
        rw [countP_seeks, List.count_eq_zero]
        exact fun hmem => hfull (hwatchful.blocks hsettled.parked hmem rfl)
      simp [Stage.seeks, Access.asking] at hset ⊢
      omega

theorem heads_request (hword : crowd.capacity < UInt64.size)
    (hsound : crowd.lock.Sound crowd.capacity crowd.stages) (hwatchful : crowd.Watchful)
    (hsettled : crowd.Settled) (hrequest : action.isRequest = true)
    (hact : crowd.act action = some begun) (hlone : begun.stages.count .awaitingSlot ≤ 1) :
    ∃ asked first, (Direct.ofCrowd crowd).request action = some asked ∧
      begun.Heads asked.outcome first := by
  have hviews := Direct.views_ofCrowd hsound
  have hbegun := hwatchful.act hsound hact
  rw [← countP_seeks] at hlone
  obtain ⟨member, hmember, hcases⟩ := act_cases hact
  generalize action.thread = thread at hmember hcases
  have hi : crowd.stages[thread]? = some member.stage := by
    rw [stages_getElem?, hmember]
    rfl
  rcases hcases with ⟨access, rfl, haway, rfl⟩ | ⟨rfl, hholds, rfl⟩ | ⟨rfl, -⟩ | ⟨rfl, -⟩
  · rw [haway] at hi
    rw [move_stages] at hlone
    have hheads := State.heads_enter hviews hsound hword access hi
      (lone_asking access hwatchful hsettled hi hlone)
    rw [← move_stages] at hheads
    exact ⟨_, _, Direct.request_acquire access (hviews.standing hi), hword, hbegun, hheads⟩
  · rw [stages, hear_stages] at hlone
    obtain ⟨asked, first, hasked, hheads⟩ :=
      State.heads_leave hviews hsound hword hi hholds hlone
    refine ⟨asked, first, hasked, hword, hbegun, ?_⟩
    rw [stages, hear_stages]
    exact hheads
  · cases hrequest
  · cases hrequest

/-- The outcome of a request does not depend on the order in which woken threads look again, nor on those
that wake for no reason in between: from wherever they are, they can come to one crowd in which nobody is
awake, and to no other. It is the one that the direct description says. -/
theorem Reachable.outcome (hword : capacity < UInt64.size) (h : Reachable capacity count crowd)
    (hsettled : crowd.Settled) (hrequest : action.isRequest = true)
    (hact : crowd.act action = some begun) (hlone : begun.stages.count .awaitingSlot ≤ 1) :
    ∃ final, crowd.perform action = some final ∧ final.Settled ∧
      (∀ between, Relation.ReflTransGen Stirs begun between →
        Relation.ReflTransGen Stirs between final ∧ (between.Settled → between = final)) ∧
      (Direct.ofCrowd crowd).perform action = some (Direct.ofCrowd final) ∧
      final.lock.occupancy = (Direct.ofCrowd final).occupancy := by
  obtain ⟨hcapacity, hsound⟩ := h.sound hword
  have hwatchful := h.watchful hword
  rw [← hcapacity] at hword
  obtain ⟨asked, first, hasked, hheads⟩ :=
    heads_request hword hsound hwatchful hsettled hrequest hact hlone
  have hfinal := hheads.stirs (stirs_settle begun)
  have hsettled' := settled_settle begun
  refine ⟨begun.settle, ?_, hsettled', fun between hbetween => ?_, ?_, ?_⟩
  · rw [perform, hact]
    rfl
  · have hcommon := hheads.stirs hbetween
    have hsame : between.settle = begun.settle :=
      (hcommon.stirs (stirs_settle between)).eq_of_settled hfinal (settled_settle between) hsettled'
    exact ⟨hsame ▸ stirs_settle between, fun hrest => hcommon.eq_of_settled hfinal hrest hsettled'⟩
  · have hgoal := hfinal.lock.views fun _ => hfinal.watchful.blocks hsettled'.parked
    have hviews := Direct.views_ofCrowd hfinal.lock.sound
    rw [Direct.perform, hasked, Option.map_some, hviews.unique hgoal hfinal.lock.sound hfinal.word]
    rfl
  · exact (Direct.views_ofCrowd hfinal.lock.sound).occupancy_eq hfinal.lock.sound

/-- A lock with one place in its ring, held by a writer, while a reader waits for the writer and another
writer waits for the place. -/
def contended : Crowd where
  capacity := 1
  lock := { readersPresent := 1, writersActive := 1, ring := [0], nextTicket := 1, slotWaiters := 1 }
  members := [⟨.writing 0, false⟩, ⟨.awaitingRead, true⟩, ⟨.awaitingSlot, true⟩]

/-- The writer leaves. The one that waits for its place looks first, and once more for no reason. -/
theorem Reachable.outcome_contended :
    ∃ final, Reachable 1 3 contended ∧ contended.perform (.release 0) = some final ∧
      [Action.release 0, .resume 2, .rouse 2, .resume 1, .resume 2].foldlM act contended = some final ∧
      final.stages = [.away, .reading, .awaitingTurn 1] := by
  have h : Reachable 1 3 contended :=
    .step (.step (.step .start ⟨.acquire 0 .write, rfl⟩) ⟨.acquire 1 .read, rfl⟩)
      ⟨.acquire 2 .write, rfl⟩
  have hact : contended.act (.release 0) = some _ := rfl
  obtain ⟨final, hperform, -, hany, -⟩ := h.outcome (by decide) (by decide) rfl hact (by decide)
  have hrun := hany _ (.head ⟨2, .inl rfl⟩ (.head ⟨2, .inr rfl⟩ (.head ⟨1, .inl rfl⟩
    (.head ⟨2, .inl rfl⟩ .refl))))
  have hfinal := hrun.2 (by decide)
  exact ⟨final, h, hperform, hfinal ▸ rfl, hfinal ▸ rfl⟩

end Crowd

end LineStore.Lock
