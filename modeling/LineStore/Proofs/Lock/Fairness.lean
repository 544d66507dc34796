import LineStore.Lock.History
import LineStore.Proofs.Lock.Access
import LineStore.Proofs.Lock.Queue
import LineStore.Server.Settings

/-!
Writers are served in the order of their tickets.

The writers with a ticket that have not left form a queue, and their tickets are the ring, in one order. A
draw goes to the end of this queue and a grant to its front. So the grants follow the draws, and the order
does not depend on who is woken when.
-/

namespace LineStore.Lock

/-- The entries of a list of past events that a change of stage adds: the thread, if what is counted was not
so and is so now. -/
def gained (counted : Stage → Bool) (thread : Nat) (old new : Stage) : List Nat :=
  if counted old = false ∧ counted new = true then [thread] else []

def Stage.ticketed (stage : Stage) : Bool :=
  stage.ticket?.isSome

theorem gained_self {counted : Stage → Bool} {thread : Nat} {stage : Stage} :
    gained counted thread stage stage = [] := by
  cases h : counted stage <;> simp [gained, h]

theorem gained_append {counted : Stage → Bool} {thread : Nat} {old between new : Stage}
    (hfirst : counted old = true → counted between = true)
    (hsecond : counted between = true → counted new = true) :
    gained counted thread old between ++ gained counted thread between new =
      gained counted thread old new := by
  cases hold : counted old <;> cases hbetween : counted between <;> cases hnew : counted new <;>
    simp_all [gained]

variable {capacity count : Nat}

/-! ### The queue -/

/-- The past of a lock: the threads that have drawn a ticket and those that have been granted write access,
oldest event first. Those that have left come first. The others are the queue, whose tickets are the ring,
and only its first thread may have been granted the lock. -/
structure State.Queued (lock : State) (stages : List Stage) (draws grants : List Nat) : Prop where
  order : ∃ left queue, draws = left ++ queue ∧ grants = left ++ queue.take lock.writersActive ∧
    queue.map (ticketAt stages) = lock.ring.map some
  numbered : lock.nextTicket = UInt64.ofNat draws.length

namespace State

variable {lock lock' : State} {stages : List Stage} {draws grants : List Nat} {i : Nat}
  {old new : Stage} {ticket : Ticket}

theorem Sound.writersActive_le_length (h : lock.Sound capacity stages) (hword : capacity < UInt64.size) :
    lock.writersActive ≤ lock.ring.length := by
  by_cases hidle : lock.writersActive = 0
  · omega
  · rw [h.writers] at hidle
    obtain ⟨stage, hmem, hwrites⟩ := List.countP_pos_iff.1 (Nat.pos_of_ne_zero hidle)
    cases stage with
    | writing ticket =>
      have hring := List.eq_cons_of_mem_head? (h.front ticket hmem)
      have hone := h.writersActive_eq_one hword hmem
      rw [hring, hone]
      simp
    | _ => cases hwrites

namespace Queued

theorem start : Queued {} (List.replicate count .away) [] [] :=
  ⟨⟨[], [], rfl, rfl, rfl⟩, rfl⟩

/-! ### One shift -/

variable (h : lock.Queued stages draws grants)
include h

/-- A shift that neither draws a ticket nor gives one up, and is no grant. -/
theorem keep (hi : stages[i]? = some old) (hsame : new.ticket? = old.ticket?)
    (hring : lock'.ring = lock.ring) (hnext : lock'.nextTicket = lock.nextTicket)
    (hactive : lock'.writersActive = lock.writersActive) :
    lock'.Queued (stages.set i new) draws grants := by
  obtain ⟨left, queue, hdraws, hgrants, hqueue⟩ := h.order
  refine ⟨⟨left, queue, hdraws, ?_, ?_⟩, hnext.trans h.numbered⟩
  · rw [hactive, hgrants]
  · rw [ticketAt_set_of_eq hi hsame, hqueue, hring]

theorem draw (hsound : lock.Sound capacity stages) (hword : capacity < UInt64.size)
    (hi : stages[i]? = some .awaitingSlot) (waiters : Nat) :
    Queued
      { lock with
        slotWaiters := waiters
        nextTicket := lock.nextTicket + 1
        ring := lock.ring ++ [lock.nextTicket] }
      (stages.set i (.awaitingTurn lock.nextTicket)) (draws ++ [i]) grants := by
  obtain ⟨left, queue, hdraws, hgrants, hqueue⟩ := h.order
  refine ⟨⟨left, queue ++ [i], ?_, ?_, queue_draw hqueue hi rfl _⟩, ?_⟩
  · rw [hdraws, List.append_assoc]
  · rw [hgrants, List.take_append_of_le_length]
    exact length_queue hqueue ▸ hsound.writersActive_le_length hword
  · simp only [h.numbered, List.length_append, List.length_singleton, UInt64.ofNat_add]
    rfl

theorem front (hsound : lock.Sound capacity stages) (hword : capacity < UInt64.size)
    (hi : stages[i]? = some old) (hticket : old.ticket? = some ticket)
    (hhead : lock.ring.head? = some ticket) :
    ∃ left rest, draws = left ++ i :: rest ∧ grants = left ++ (i :: rest).take lock.writersActive ∧
      rest.map (ticketAt stages) = lock.ring.tail.map some := by
  obtain ⟨left, queue, hdraws, hgrants, hqueue⟩ := h.order
  obtain ⟨rest, rfl, hrest⟩ := queue_front hqueue hsound hword hi hticket hhead
  exact ⟨left, rest, hdraws, hgrants, hrest⟩

theorem startWrite (hsound : lock.Sound capacity stages) (hword : capacity < UInt64.size)
    (hi : stages[i]? = some (.awaitingTurn ticket)) (hhead : lock.ring.head? = some ticket) :
    Queued { lock with writersActive := 1 } (stages.set i (.writing ticket)) draws (grants ++ [i]) := by
  have hidle : lock.writersActive = 0 :=
    hsound.writersActive_eq_zero hword (List.mem_of_getElem? hi) hhead
  obtain ⟨left, rest, hdraws, hgrants, hrest⟩ := h.front hsound hword hi rfl hhead
  refine ⟨⟨left, i :: rest, hdraws, ?_, ?_⟩, h.numbered⟩
  · rw [hgrants, hidle]
    simp
  · have hsame : ticketAt (stages.set i (.writing ticket)) = ticketAt stages := ticketAt_set_of_eq hi rfl
    rw [hsame, List.map_cons, hrest, ticketAt_of_getElem? hi, List.eq_cons_of_mem_head? hhead]
    rfl

theorem leaveWrite (hsound : lock.Sound capacity stages) (hword : capacity < UInt64.size)
    (hi : stages[i]? = some (.writing ticket)) :
    Queued { lock with writersActive := 0, ring := lock.ring.tail } (stages.set i .away) draws
      grants := by
  obtain ⟨left, queue, hdraws, hgrants, hqueue⟩ := h.order
  obtain ⟨rest, rfl, hrest⟩ := queue_leaveWrite hqueue hsound hword hi
  refine ⟨⟨left ++ [i], rest, ?_, ?_, hrest⟩, h.numbered⟩
  · rw [hdraws, List.append_assoc, List.singleton_append]
  · rw [hgrants, hsound.writersActive_eq_one hword (List.mem_of_getElem? hi)]
    simp

theorem shift (hsound : lock.Sound capacity stages) (hword : capacity < UInt64.size)
    (hi : stages[i]? = some old) (hshift : Shift capacity (lock, old) (lock', new)) :
    lock'.Queued (stages.set i new) (draws ++ gained Stage.ticketed i old new)
      (grants ++ gained Stage.writes i old new) := by
  cases hshift with
  | announce | startRead | arrive | leaveRead =>
    change Queued _ _ (draws ++ []) (grants ++ [])
    rw [List.append_nil, List.append_nil]
    exact h.keep hi rfl rfl rfl rfl
  | draw =>
    change Queued _ _ (draws ++ [i]) (grants ++ [])
    rw [List.append_nil]
    exact h.draw hsound hword hi _
  | startWrite hhead =>
    change Queued _ _ (draws ++ []) (grants ++ [i])
    rw [List.append_nil]
    exact h.startWrite hsound hword hi hhead
  | leaveWrite =>
    change Queued _ _ (draws ++ []) (grants ++ [])
    rw [List.append_nil, List.append_nil]
    exact h.leaveWrite hsound hword hi

/-! ### One action -/

omit h in
/-- A thread that comes nearer to the lock keeps its ticket, and gets the lock last of all. -/
theorem advances_gained {before after : State × Stage} (hadvances : Advances capacity before after) :
    (before.2.ticketed = true → after.2.ticketed = true) ∧
      (before.2.writes = true → after.2.writes = true) := by
  induction hadvances with
  | refl => exact ⟨id, id⟩
  | tail _ hshift ih =>
    obtain ⟨hshift, hwaits⟩ := hshift
    refine ⟨fun hticketed => ?_, fun hwrites => ?_⟩
    · have hbetween := ih.1 hticketed
      cases hshift <;> simp_all [Stage.ticketed, Stage.ticket?, Stage.holds]
    · have hbetween := ih.2 hwrites
      cases hshift <;> simp_all [Stage.writes, Stage.holds]

theorem advances (hsound : lock.Sound capacity stages) (hword : capacity < UInt64.size)
    (hi : stages[i]? = some old) {outcome : State × Stage}
    (hadvances : Advances capacity (lock, old) outcome) :
    outcome.1.Queued (stages.set i outcome.2) (draws ++ gained Stage.ticketed i old outcome.2)
      (grants ++ gained Stage.writes i old outcome.2) := by
  induction hadvances with
  | refl =>
    obtain ⟨hlt, rfl⟩ := List.getElem?_eq_some_iff.1 hi
    rwa [gained_self, gained_self, List.append_nil, List.append_nil, List.set_getElem_self]
  | @tail between outcome hbefore hshift ih =>
    have hset : (stages.set i between.2)[i]? = some between.2 :=
      List.getElem?_set_self (List.getElem?_eq_some_iff.1 hi).1
    have hbetween := hsound.shifts hword hi (Advances.shifts hbefore)
    have hnext := ih.shift hbetween hword hset hshift.1
    obtain ⟨hticketed, hwrites⟩ := advances_gained hbefore
    obtain ⟨hticketed', hwrites'⟩ := advances_gained (.single hshift)
    rwa [List.set_set, List.append_assoc, List.append_assoc, gained_append hticketed hticketed',
      gained_append hwrites hwrites'] at hnext

end Queued

end State

/-! ### Histories -/

namespace History

variable {history after : History} {action : Action}

theorem act_eq_some (h : history.act action = some after) :
    history.crowd.act action = some after.crowd ∧
      after.arrivals = history.arrivals ++ (if isArrival action then [action.thread] else []) ∧
      after.draws = history.draws ++ gained Stage.ticketed action.thread
        (history.crowd.stageOf action.thread) (after.crowd.stageOf action.thread) ∧
      after.grants = history.grants ++ gained Stage.writes action.thread
        (history.crowd.stageOf action.thread) (after.crowd.stageOf action.thread) := by
  obtain ⟨crowd, hact, rfl⟩ := Option.map_eq_some_iff.1 h
  refine ⟨hact, rfl, ?_, ?_⟩
  · simp [gained, Stage.ticketed, Option.isSome_iff_ne_none]
  · simp [gained]

theorem Reachable.crowd (h : Reachable capacity count history) :
    Crowd.Reachable capacity count history.crowd := by
  induction h with
  | start => exact .start
  | step _ hstep ih => exact ih.step ⟨_, (act_eq_some hstep).1⟩

theorem Reachable.queued (hword : capacity < UInt64.size) (h : Reachable capacity count history) :
    history.crowd.lock.Queued history.crowd.stages history.draws history.grants := by
  induction h with
  | start =>
    simp only [Crowd.ofSize, Crowd.stages, List.map_replicate]
    exact .start
  | step hbefore hstep ih =>
    obtain ⟨hact, -, hdraws, hgrants⟩ := act_eq_some hstep
    obtain ⟨hcapacity, hsound⟩ := hbefore.crowd.sound hword
    rw [← hcapacity] at hword
    obtain ⟨old, new, hold, hstages, -, hmoves⟩ := Crowd.act_advances hsound.slotWaiters_pos hact
    have hnew := List.getElem?_set_self (a := new) (List.getElem?_eq_some_iff.1 hold).1
    rw [← hstages] at hnew
    rw [hdraws, hgrants, hstages, Crowd.stageOf_of_stages hold, Crowd.stageOf_of_stages hnew]
    -- a writer may draw its ticket and be granted the lock in one segment
    rcases hmoves with hadvances | hshift
    · exact ih.advances hsound hword hold hadvances
    · exact ih.shift hsound hword hold hshift

end History

/-! ### Room for every thread -/

namespace State

variable {lock : State}

theorem retryTurn_ne_awaitingSlot {ticket : Ticket} : (lock.retryTurn ticket).2 ≠ .awaitingSlot := by
  rw [retryTurn]
  split <;> simp

theorem retryRead_ne_awaitingSlot : lock.retryRead.2 ≠ .awaitingSlot := by
  rw [retryRead]
  split <;> simp

theorem enter_ne_awaitingSlot (hroom : lock.ring.length < capacity) (access : Access) :
    (lock.enter capacity access).2 ≠ .awaitingSlot := by
  cases access with
  | read => exact retryRead_ne_awaitingSlot
  | write =>
    rw [enter, enterWrite, if_neg (Nat.not_le.2 hroom)]
    exact retryTurn_ne_awaitingSlot

theorem retry_ne_awaitingSlot {stage : Stage} (h : stage ≠ .awaitingSlot) :
    (lock.retry capacity stage).2 ≠ .awaitingSlot := by
  cases stage with
  | awaitingRead => exact retryRead_ne_awaitingSlot
  | awaitingTurn ticket => exact retryTurn_ne_awaitingSlot
  | awaitingSlot => exact absurd rfl h
  | away | reading | writing ticket => exact h

/-- A ring with a place for every thread has one for a thread that is away. -/
theorem Sound.ring_length_lt {stages : List Stage} (h : lock.Sound capacity stages)
    (hroom : stages.length ≤ capacity) (haway : .away ∈ stages) : lock.ring.length < capacity := by
  have hfewer : (stages.filterMap Stage.ticket?).length < stages.length :=
    List.length_filterMap_lt_length_iff_exists.2 ⟨.away, haway, rfl⟩
  rw [h.ring_perm.length_eq]
  omega

end State

namespace Crowd

variable {crowd after : Crowd} {action : Action}

/-- Where the ring has a place for every thread, no writer waits for one. -/
theorem Reachable.awaitingSlot_notMem (hword : capacity < UInt64.size) (hroom : count ≤ capacity)
    (h : Reachable capacity count crowd) : .awaitingSlot ∉ crowd.stages := by
  induction h with
  | start => simp [stages, ofSize]
  | step hbefore hstep ih =>
    obtain ⟨hcapacity, hsound⟩ := hbefore.sound hword
    obtain ⟨action, hact⟩ := hstep
    obtain ⟨old, new, hold, hstages, -, hmoves⟩ := act_stages hact
    have hmem := List.mem_of_getElem? hold
    have hnew : new ≠ .awaitingSlot := by
      intro hslot
      rcases hmoves with ⟨access, rfl, heq⟩ | ⟨-, heq⟩ | heq | heq
      · rw [← hcapacity, ← hbefore.length_stages hword] at hroom
        exact absurd ((congrArg Prod.snd heq).symm.trans hslot)
          (State.enter_ne_awaitingSlot (hsound.ring_length_lt hroom hmem) access)
      · cases (congrArg Prod.snd heq).symm.trans hslot
      · exact absurd ((congrArg Prod.snd heq).symm.trans hslot)
          (State.retry_ne_awaitingSlot fun hwait => ih (hwait ▸ hmem))
      · exact ih ((congrArg Prod.snd heq).symm.trans hslot ▸ hmem)
    rw [hstages]
    intro hslot
    rcases List.mem_or_eq_of_mem_set hslot with hslot | hslot
    · exact ih hslot
    · exact hnew hslot.symm

theorem Reachable.stageOf_ne_awaitingSlot (hword : capacity < UInt64.size) (hroom : count ≤ capacity)
    (h : Reachable capacity count crowd) {thread : Nat} : crowd.stageOf thread ≠ .awaitingSlot := by
  intro hslot
  have hget := getElem?_stages_of_ne_away (by simp [hslot] : crowd.stageOf thread ≠ .away)
  exact h.awaitingSlot_notMem hword hroom (List.mem_of_getElem? (hslot ▸ hget))

end Crowd

namespace History

variable {history : History}

/-- A thread that waits for no place has a ticket just when it is after write access. -/
theorem ticketed_iff {stage : Stage} (h : stage ≠ .awaitingSlot) :
    stage.ticketed = true ↔ stage.access? = some .write := by
  cases stage <;> simp_all [Stage.ticketed, Stage.ticket?, Stage.access?]

theorem gained_ticketed {action : Action} {old new : Stage} (hleads : action.Leads old new)
    (hold : old ≠ .awaitingSlot) (hnew : new ≠ .awaitingSlot) :
    gained Stage.ticketed action.thread old new = if isArrival action then [action.thread] else [] := by
  have hiff := ticketed_iff hold
  have hiff' := ticketed_iff hnew
  cases action with
  | acquire thread access =>
    obtain ⟨rfl, haccess⟩ := hleads
    cases access <;> simp_all [gained, isArrival, Stage.access?]
  | release thread =>
    obtain ⟨-, rfl⟩ := hleads
    simp [gained, isArrival, Stage.ticketed, Stage.ticket?]
  | resume thread | rouse thread =>
    rw [hleads.2, ← hiff, ← Bool.eq_iff_iff] at hiff'
    simp [gained, isArrival, hiff']

theorem Reachable.draws_eq_arrivals (hword : capacity < UInt64.size) (hroom : count ≤ capacity)
    (h : Reachable capacity count history) : history.draws = history.arrivals := by
  induction h with
  | start => rfl
  | step hbefore hstep ih =>
    obtain ⟨hact, harrivals, hdraws, -⟩ := act_eq_some hstep
    have hcrowd := hbefore.crowd
    have hafter := (hbefore.step hstep).crowd
    rw [hdraws, harrivals, ih, gained_ticketed (Crowd.act_leads (hcrowd.watchful hword) hact)
      (hcrowd.stageOf_ne_awaitingSlot hword hroom) (hafter.stageOf_ne_awaitingSlot hword hroom)]

/-- The thread that writes was the last to be granted access, and has the ticket of that number. -/
theorem Reachable.grants_of_writing (hword : capacity < UInt64.size)
    (h : Reachable capacity count history) {thread : Nat} {ticket : Ticket}
    (hwriting : history.crowd.stageOf thread = .writing ticket) :
    ∃ earlier, history.grants = earlier ++ [thread] ∧ ticket = UInt64.ofNat earlier.length := by
  obtain ⟨hcapacity, hsound⟩ := h.crowd.sound hword
  have hqueued := h.queued hword
  rw [← hcapacity] at hword
  have hget : history.crowd.stages[thread]? = some (.writing ticket) := by
    rw [← hwriting]
    exact Crowd.getElem?_stages_of_ne_away (by simp [hwriting])
  have hmem := List.mem_of_getElem? hget
  have hhead := hsound.front ticket hmem
  obtain ⟨left, rest, hdraws, hgrants, hrest⟩ := hqueued.front hsound hword hget rfl hhead
  refine ⟨left, ?_, ?_⟩
  · rw [hgrants, hsound.writersActive_eq_one hword hmem]
    rfl
  · have hnumber := hqueued.numbered
    obtain ⟨served, hring, hnext⟩ := hsound.drawn
    have hlength : history.draws.length = left.length + history.crowd.lock.ring.length := by
      have hlength' := congrArg List.length hrest
      rw [List.eq_cons_of_mem_head? hhead, hdraws]
      simp at hlength' ⊢
      omega
    rw [hnext, hlength, UInt64.ofNat_add, UInt64.ofNat_add, UInt64.add_left_inj] at hnumber
    rw [← hnumber]
    rw [List.eq_cons_of_mem_head? hhead, List.length_cons, List.range'_succ, List.map_cons] at hring
    exact (List.cons.inj hring).1

theorem Reachable.of_actions {before : History} (h : Reachable capacity count before)
    (actions : List Action) (hactions : actions.foldlM act before = some history) :
    Reachable capacity count history := by
  induction actions generalizing before with
  | nil =>
    cases hactions
    exact h
  | cons action actions ih =>
    obtain ⟨next, hnext, hrest⟩ := Option.bind_eq_some_iff.1 hactions
    exact ih (h.step hnext) hrest

/-- Whether every writer has drawn its ticket at once, so that the grants follow the requests. -/
structure InOrder (history : History) : Prop where
  no_wait : .awaitingSlot ∉ history.crowd.stages
  draws_eq : history.draws = history.arrivals
  grants_prefix : history.grants <+: history.arrivals

/-- First come, first served, for any number of threads and in every order of their steps. The grants
follow the draws, and the ticket of the thread that was granted access as number `k` is `k` in a machine
word, however often these have wrapped around. Where the ring has a place for every thread, as the locks of
a server have, nobody waits for a place and the grants follow the requests. -/
theorem Reachable.first_come (hword : capacity < UInt64.size) (h : Reachable capacity count history) :
    history.grants <+: history.draws ∧
      history.crowd.lock.nextTicket = UInt64.ofNat history.draws.length ∧
      (∀ thread ticket, history.crowd.stageOf thread = .writing ticket →
        ∃ earlier, history.grants = earlier ++ [thread] ∧ ticket = UInt64.ofNat earlier.length) ∧
      (count ≤ capacity → history.InOrder) ∧
      ∀ settings : Server.Settings, settings.workers = count →
        settings.lockOptions.ringCapacity = capacity → history.InOrder := by
  have hqueued := h.queued hword
  obtain ⟨left, queue, hdraws, hgrants, -⟩ := hqueued.order
  have hbegins : history.grants <+: history.draws := by
    rw [hdraws, hgrants, List.prefix_append_right_inj]
    exact List.take_prefix ..
  have hroomy : count ≤ capacity → history.InOrder := by
    intro hroom
    have hsame := h.draws_eq_arrivals hword hroom
    exact ⟨h.crowd.awaitingSlot_notMem hword hroom, hsame, hsame ▸ hbegins⟩
  refine ⟨hbegins, hqueued.numbered, fun thread ticket => h.grants_of_writing hword, hroomy, ?_⟩
  intro settings hworkers hcapacity
  exact hroomy (hworkers ▸ hcapacity ▸ Nat.le_refl settings.workers)

/-- Three writers, of which the last woken is served before the first woken, and a reader that comes in
between. -/
theorem Reachable.first_come_contended :
    ∃ history, Reachable 4 4 history ∧ history.crowd.stageOf 2 = .writing 1 ∧
      history.grants = [0, 2] ∧ history.draws = [0, 2, 1] ∧ history.grants <+: history.draws ∧
      (∃ earlier, history.grants = earlier ++ [2] ∧ (1 : Ticket) = UInt64.ofNat earlier.length) ∧
      history.InOrder :=
  have h : Reachable 4 4 _ :=
    Reachable.start.of_actions [.acquire 0 .write, .acquire 2 .write, .acquire 1 .write, .release 0,
      .acquire 3 .read, .resume 1, .resume 2, .release 3, .resume 2] rfl
  have hfirst := Reachable.first_come (by decide) h
  ⟨_, h, rfl, rfl, rfl, hfirst.1, hfirst.2.2.1 2 1 rfl,
    hfirst.2.2.2.2 { workers := 4 } rfl rfl⟩

end History

end LineStore.Lock
