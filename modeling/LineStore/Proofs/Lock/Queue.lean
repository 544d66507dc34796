import LineStore.Proofs.Lock.Exclusion

/-!
The threads whose tickets are on the ring of a lock, in one line with these.

A draw puts a thread at the end of the line, the thread at its front has the ticket at the head of the ring,
and it is the one that a writer which leaves takes off. Everything else leaves the line as it is.
-/

namespace LineStore.Lock

/-- The ticket of a thread, if it has one. -/
def ticketAt (stages : List Stage) (thread : Nat) : Option Ticket :=
  stages[thread]?.bind Stage.ticket?

theorem ticketAt_of_getElem? {stages : List Stage} {thread : Nat} {stage : Stage}
    (h : stages[thread]? = some stage) : ticketAt stages thread = stage.ticket? := by
  simp [ticketAt, h]

theorem ticketAt_set_self {stages : List Stage} {thread : Nat} {old : Stage} (new : Stage)
    (h : stages[thread]? = some old) : ticketAt (stages.set thread new) thread = new.ticket? :=
  ticketAt_of_getElem? (List.getElem?_set_self (List.getElem?_eq_some_iff.1 h).1)

theorem ticketAt_set_of_ne {stages : List Stage} {thread other : Nat} (new : Stage)
    (h : other ≠ thread) : ticketAt (stages.set thread new) other = ticketAt stages other := by
  simp [ticketAt, List.getElem?_set_ne h.symm]

theorem ticketAt_set_of_eq {stages : List Stage} {thread : Nat} {old new : Stage}
    (h : stages[thread]? = some old) (hsame : new.ticket? = old.ticket?) :
    ticketAt (stages.set thread new) = ticketAt stages := by
  funext other
  by_cases hother : other = thread
  · rw [hother, ticketAt_set_self new h, ticketAt_of_getElem? h, hsame]
  · exact ticketAt_set_of_ne new hother

namespace State

variable {capacity : Nat} {lock : State} {stages : List Stage} {queue : List Nat} {i j : Nat}
  {old : Stage} {ticket : Ticket}

/-- No two threads have one ticket. -/
theorem Sound.eq_of_ticketAt (h : lock.Sound capacity stages) (hword : capacity < UInt64.size)
    (hi : ticketAt stages i = some ticket) (hj : ticketAt stages j = some ticket) : i = j := by
  obtain ⟨stage, hstage, hticket⟩ := Option.bind_eq_some_iff.1 hi
  obtain ⟨other, hother, hsame⟩ := Option.bind_eq_some_iff.1 hj
  refine eq_of_countP_le_one (h.countP_owns_le hword ticket) hstage ?_ hother ?_
  · simp [Stage.owns, hticket]
  · simp [Stage.owns, hsame]

section

variable (hqueue : queue.map (ticketAt stages) = lock.ring.map some)
include hqueue

theorem length_queue : queue.length = lock.ring.length := by
  simpa using congrArg List.length hqueue

/-- A thread without a ticket is not in the queue, so those in it keep their tickets. -/
theorem queue_draw (hi : stages[i]? = some old) (hnone : old.ticket? = none) (ticket : Ticket) :
    (queue ++ [i]).map (ticketAt (stages.set i (.awaitingTurn ticket))) =
      (lock.ring ++ [ticket]).map some := by
  have hothers : queue.map (ticketAt (stages.set i (.awaitingTurn ticket))) =
      queue.map (ticketAt stages) := by
    refine List.map_congr_left fun thread hthread => ticketAt_set_of_ne _ ?_
    rintro rfl
    have hmem : ticketAt stages thread ∈ lock.ring.map some := hqueue ▸ List.mem_map_of_mem hthread
    rw [ticketAt_of_getElem? hi, hnone] at hmem
    simp at hmem
  simp only [List.map_append, hothers, hqueue, List.map_singleton, ticketAt_set_self _ hi]
  rfl

theorem queue_front (hsound : lock.Sound capacity stages) (hword : capacity < UInt64.size)
    (hi : stages[i]? = some old) (hticket : old.ticket? = some ticket)
    (hhead : lock.ring.head? = some ticket) :
    ∃ rest, queue = i :: rest ∧ rest.map (ticketAt stages) = lock.ring.tail.map some := by
  rw [List.eq_cons_of_mem_head? hhead, List.map_cons] at hqueue
  cases queue with
  | nil => cases hqueue
  | cons first rest =>
    obtain ⟨hfirst, hrest⟩ := List.cons.inj hqueue
    have hsame : first = i :=
      hsound.eq_of_ticketAt hword hfirst ((ticketAt_of_getElem? hi).trans hticket)
    exact ⟨rest, by rw [hsame], hrest⟩

theorem queue_leaveWrite (hsound : lock.Sound capacity stages) (hword : capacity < UInt64.size)
    (hi : stages[i]? = some (.writing ticket)) :
    ∃ rest, queue = i :: rest ∧
      rest.map (ticketAt (stages.set i .away)) = lock.ring.tail.map some := by
  have hhead := hsound.front ticket (List.mem_of_getElem? hi)
  obtain ⟨rest, hcons, hrest⟩ := queue_front hqueue hsound hword hi rfl hhead
  refine ⟨rest, hcons, ?_⟩
  rw [← hrest]
  refine List.map_congr_left fun thread hthread => ticketAt_set_of_ne _ ?_
  rintro rfl
  -- its ticket would be on the ring twice
  have htail : ticketAt stages thread ∈ lock.ring.tail.map some := hrest ▸ List.mem_map_of_mem hthread
  rw [ticketAt_of_getElem? hi] at htail
  obtain ⟨own, hown, hsame⟩ := List.mem_map.1 htail
  cases hsame
  have hnodup := hsound.nodup_ring hword
  rw [List.eq_cons_of_mem_head? hhead] at hnodup
  exact (List.nodup_cons.1 hnodup).1 hown

end

end State

end LineStore.Lock
