import LineStore.Proofs.Counting
import LineStore.Proofs.Lock.Shifts
import Mathlib.Data.List.Nodup
import Mathlib.Data.List.Perm.Basic

/-!
A writer is alone, and the counters of a lock count its threads.

`State.Sound` is the invariant: it ties the counters and the ring of a lock to the stages of all threads.
Every shift keeps it, so it holds in every state that a crowd can come to.
-/

namespace LineStore.Lock

/-- Whether a thread at this stage has announced itself as a reader and not left. -/
def Stage.reads : Stage → Bool
  | awaitingRead | reading => true
  | _ => false

def Stage.seeks : Stage → Bool
  | awaitingSlot => true
  | _ => false

def Stage.owns (ticket : Ticket) (stage : Stage) : Bool :=
  stage.ticket? = some ticket

/-! ## Counting -/

theorem countP_seeks {stages : List Stage} : stages.countP Stage.seeks = stages.count .awaitingSlot :=
  List.countP_congr fun stage _ => by cases stage <;> simp [Stage.seeks]

/-- If at most one element of a list is of a kind, two places at which such elements stand are one. -/
theorem eq_of_countP_le_one {α : Type} {l : List α} {i j : Nat} {a b : α} {p : α → Bool}
    (h : l.countP p ≤ 1) (hi : l[i]? = some a) (ha : p a = true) (hj : l[j]? = some b)
    (hb : p b = true) : i = j := by
  by_contra hne
  obtain ⟨hlt, rfl⟩ := List.getElem?_eq_some_iff.1 hi
  have hrest : 0 < (l.eraseIdx i).countP p :=
    List.countP_pos_iff.2 ⟨b, List.mem_eraseIdx_iff_getElem?.2 ⟨j, Ne.symm hne, hj⟩, hb⟩
  rw [← (List.getElem_cons_eraseIdx_perm hlt).countP_eq, List.countP_cons_of_pos ha] at h
  omega

/-- Tickets drawn one after another differ, as long as they are not more than there are tickets. -/
theorem nodup_tickets {served n : Nat} (h : n ≤ UInt64.size) :
    ((List.range' served n).map UInt64.ofNat).Nodup := by
  refine List.Nodup.map_on (fun a ha b hb heq => ?_) List.nodup_range'
  have hmod : a % 2 ^ 64 = b % 2 ^ 64 := by
    simpa only [UInt64.toNat_ofNat'] using congrArg UInt64.toNat heq
  rw [List.mem_range'_1] at ha hb
  rw [UInt64.size] at h
  omega

/-! ## The invariant -/

/-- What the counters and the ring of a lock say of the stages of its threads. -/
structure State.Sound (capacity : Nat) (lock : State) (stages : List Stage) : Prop where
  writers : lock.writersActive = stages.countP Stage.writes
  readers : lock.readersPresent = stages.countP Stage.reads
  seekers : lock.slotWaiters = stages.countP Stage.seeks
  owners : ∀ ticket, lock.ring.count ticket = stages.countP (Stage.owns ticket)
  length_le : lock.ring.length ≤ capacity
  /-- The ring holds the tickets that were drawn last, in the order in which they were drawn. -/
  drawn : ∃ served, lock.ring = (List.range' served lock.ring.length).map UInt64.ofNat ∧
    lock.nextTicket = UInt64.ofNat (served + lock.ring.length)
  front : ∀ ticket, .writing ticket ∈ stages → lock.ring.head? = some ticket
  apart : ∀ ticket, .writing ticket ∈ stages → .reading ∉ stages

namespace State.Sound

variable {capacity : Nat} {lock lock' : State} {stages : List Stage} {i : Nat} {old new : Stage}
  {ticket : Ticket}

theorem start {capacity count : Nat} : Sound capacity {} (List.replicate count .away) where
  writers := by simp [List.countP_replicate, Stage.writes]
  readers := by simp [List.countP_replicate, Stage.reads]
  seekers := by simp [List.countP_replicate, Stage.seeks]
  owners ticket := by simp [List.countP_replicate, Stage.owns, Stage.ticket?]
  length_le := Nat.zero_le _
  drawn := ⟨0, rfl, rfl⟩
  front ticket h := by cases List.eq_of_mem_replicate h
  apart ticket h := by cases List.eq_of_mem_replicate h

section

variable (h : lock.Sound capacity stages) (hword : capacity < UInt64.size)
include h

theorem slotWaiters_pos (hmem : .awaitingSlot ∈ stages) : 0 < lock.slotWaiters := by
  rw [h.seekers]
  exact List.countP_pos_iff.2 ⟨_, hmem, rfl⟩

theorem readersPresent_pos (hmem : .reading ∈ stages) : 0 < lock.readersPresent := by
  rw [h.readers]
  exact List.countP_pos_iff.2 ⟨_, hmem, rfl⟩

theorem ring_perm : lock.ring.Perm (stages.filterMap Stage.ticket?) := by
  refine List.perm_iff_count.2 fun ticket => ?_
  rw [h.owners, List.count_filterMap]
  exact List.countP_congr fun stage _ => by simp [Stage.owns]

theorem mem_ring (hmem : .awaitingTurn ticket ∈ stages) : ticket ∈ lock.ring := by
  rw [← List.count_pos_iff, h.owners]
  exact List.countP_pos_iff.2 ⟨_, hmem, by simp [Stage.owns, Stage.ticket?]⟩

include hword

theorem nodup_ring : lock.ring.Nodup := by
  obtain ⟨served, hring, -⟩ := h.drawn
  rw [hring]
  exact nodup_tickets (Nat.le_trans h.length_le (Nat.le_of_lt hword))

theorem countP_owns_le (ticket : Ticket) : stages.countP (Stage.owns ticket) ≤ 1 := by
  rw [← h.owners]
  exact List.nodup_iff_count_le_one.1 (h.nodup_ring hword) ticket

/-- There is one writer at most, for all of them would have the ticket at the head of the ring. -/
theorem countP_writes_le : stages.countP Stage.writes ≤ 1 := by
  cases hhead : lock.ring.head? with
  | none =>
    have hnone : stages.countP Stage.writes = 0 := by
      refine List.countP_eq_zero.2 fun stage hmem hwrites => ?_
      cases stage with
      | writing ticket =>
        rw [h.front ticket hmem] at hhead
        cases hhead
      | _ => cases hwrites
    omega
  | some ticket =>
    refine Nat.le_trans (List.countP_mono_left fun stage hmem hwrites => ?_)
      (h.countP_owns_le hword ticket)
    cases stage with
    | writing other =>
      rw [h.front other hmem, Option.some_inj] at hhead
      simp [Stage.owns, Stage.ticket?, hhead]
    | _ => cases hwrites

/-- While a thread with the ticket at the head of the ring waits for its turn, nobody writes. -/
theorem countP_writes_eq_zero (hi : stages[i]? = some (.awaitingTurn ticket))
    (hhead : lock.ring.head? = some ticket) : stages.countP Stage.writes = 0 := by
  refine List.countP_eq_zero.2 fun stage hmem hwrites => ?_
  cases stage with
  | writing other =>
    have hsame : other = ticket := Option.some_inj.1 ((h.front other hmem).symm.trans hhead)
    subst hsame
    obtain ⟨j, hj⟩ := List.mem_iff_getElem?.1 hmem
    have hij : i = j := eq_of_countP_le_one (h.countP_owns_le hword other) hi
      (by simp [Stage.owns, Stage.ticket?]) hj (by simp [Stage.owns, Stage.ticket?])
    rw [hij, hj] at hi
    cases hi
  | _ => cases hwrites

theorem writersActive_eq_zero (hmem : .awaitingTurn ticket ∈ stages)
    (hhead : lock.ring.head? = some ticket) : lock.writersActive = 0 := by
  obtain ⟨i, hi⟩ := List.mem_iff_getElem?.1 hmem
  rw [h.writers]
  exact h.countP_writes_eq_zero hword hi hhead

theorem writersActive_eq_one (hmem : .writing ticket ∈ stages) : lock.writersActive = 1 := by
  have hpos : 0 < stages.countP Stage.writes := List.countP_pos_iff.2 ⟨_, hmem, rfl⟩
  have hle := h.countP_writes_le hword
  rw [h.writers]
  omega

end

/-! ## Shifts keep the invariant -/

theorem shift_writers (h : lock.Sound capacity stages) (hword : capacity < UInt64.size)
    (hi : stages[i]? = some old) (hshift : Shift capacity (lock, old) (lock', new)) :
    lock'.writersActive = (stages.set i new).countP Stage.writes := by
  have hwriters := h.writers
  have hset := countP_set_add Stage.writes new hi
  cases hshift with
  | announce | startRead | arrive | draw | leaveRead =>
    simp [Stage.writes] at hset ⊢
    omega
  | startWrite hhead hnone =>
    have hzero := h.countP_writes_eq_zero hword hi hhead
    simp [Stage.writes] at hset ⊢
    omega
  | leaveWrite =>
    have hone := h.countP_writes_le hword
    simp [Stage.writes] at hset ⊢
    omega

theorem shift_readers (h : lock.Sound capacity stages) (hi : stages[i]? = some old)
    (hshift : Shift capacity (lock, old) (lock', new)) :
    lock'.readersPresent = (stages.set i new).countP Stage.reads := by
  have hreaders := h.readers
  have hset := countP_set_add Stage.reads new hi
  cases hshift <;> simp [Stage.reads] at hset ⊢ <;> omega

theorem shift_seekers (h : lock.Sound capacity stages) (hi : stages[i]? = some old)
    (hshift : Shift capacity (lock, old) (lock', new)) :
    lock'.slotWaiters = (stages.set i new).countP Stage.seeks := by
  have hseekers := h.seekers
  have hset := countP_set_add Stage.seeks new hi
  cases hshift <;> simp [Stage.seeks] at hset ⊢ <;> omega

theorem ring_eq_cons (h : lock.Sound capacity stages) (hi : stages[i]? = some (.writing ticket)) :
    lock.ring = ticket :: lock.ring.tail :=
  List.eq_cons_of_mem_head? (h.front ticket (List.mem_of_getElem? hi))

theorem shift_owners (h : lock.Sound capacity stages) (hi : stages[i]? = some old)
    (hshift : Shift capacity (lock, old) (lock', new)) (ticket : Ticket) :
    lock'.ring.count ticket = (stages.set i new).countP (Stage.owns ticket) := by
  have howners := h.owners ticket
  have hset := countP_set_add (Stage.owns ticket) new hi
  cases hshift with
  | announce | startRead | arrive | startWrite | leaveRead =>
    simp [Stage.owns, Stage.ticket?] at hset ⊢
    omega
  | draw =>
    simp only [List.count_append, List.count_singleton]
    by_cases hown : lock.nextTicket = ticket
    · simp [Stage.owns, Stage.ticket?, hown] at hset ⊢
      omega
    · simp [Stage.owns, Stage.ticket?, hown] at hset ⊢
      omega
  | @leaveWrite _ own =>
    rw [h.ring_eq_cons hi, List.count_cons] at howners
    by_cases hown : own = ticket
    · simp [Stage.owns, Stage.ticket?, hown] at hset howners ⊢
      omega
    · simp [Stage.owns, Stage.ticket?, hown] at hset howners ⊢
      omega

theorem shift_length_le (h : lock.Sound capacity stages)
    (hshift : Shift capacity (lock, old) (lock', new)) : lock'.ring.length ≤ capacity := by
  have hle := h.length_le
  cases hshift with
  | announce | startRead | arrive | startWrite | leaveRead => exact hle
  | draw hroom =>
    rw [List.length_append]
    exact hroom
  | leaveWrite => exact Nat.le_trans (List.length_tail ▸ Nat.sub_le ..) hle

theorem shift_drawn (h : lock.Sound capacity stages) (hi : stages[i]? = some old)
    (hshift : Shift capacity (lock, old) (lock', new)) :
    ∃ served, lock'.ring = (List.range' served lock'.ring.length).map UInt64.ofNat ∧
      lock'.nextTicket = UInt64.ofNat (served + lock'.ring.length) := by
  obtain ⟨served, hring, hnext⟩ := h.drawn
  cases hshift with
  | announce | startRead | arrive | startWrite | leaveRead => exact ⟨served, hring, hnext⟩
  | draw =>
    refine ⟨served, ?_, ?_⟩
    · simp only [List.length_append, List.length_singleton]
      rw [List.range'_1_concat, List.map_append, ← hring, List.map_singleton, ← hnext]
    · simp only [List.length_append, List.length_singleton]
      rw [hnext, ← Nat.add_assoc, UInt64.ofNat_add _ 1]
      rfl
  | leaveWrite =>
    have hcons := h.ring_eq_cons hi
    have hlen : lock.ring.length = lock.ring.tail.length + 1 := by
      rw [hcons]
      rfl
    refine ⟨served + 1, ?_, ?_⟩
    · simp only [hlen] at hring
      simpa [List.range'_succ] using congrArg List.tail hring
    · rw [hnext, hlen, Nat.add_assoc, Nat.add_comm 1]

theorem shift_front (h : lock.Sound capacity stages) (hword : capacity < UInt64.size)
    (hi : stages[i]? = some old) (hshift : Shift capacity (lock, old) (lock', new))
    (ticket : Ticket) (hmem : .writing ticket ∈ stages.set i new) :
    lock'.ring.head? = some ticket := by
  cases hshift with
  | announce | startRead | arrive | leaveRead =>
    rcases List.mem_or_eq_of_mem_set hmem with hold | hnew
    · exact h.front ticket hold
    · cases hnew
  | draw =>
    rcases List.mem_or_eq_of_mem_set hmem with hold | hnew
    · rw [List.head?_append, h.front ticket hold]
      rfl
    · cases hnew
  | startWrite hhead hnone =>
    rcases List.mem_or_eq_of_mem_set hmem with hold | hnew
    · exact h.front ticket hold
    · cases hnew
      exact hhead
  | leaveWrite =>
    -- the writer that leaves was the only one
    have hone := h.countP_writes_le hword
    have hset := countP_set_add Stage.writes .away hi
    have hleft : 0 < (stages.set i .away).countP Stage.writes :=
      List.countP_pos_iff.2 ⟨_, hmem, rfl⟩
    simp [Stage.writes] at hset
    omega

theorem shift_apart (h : lock.Sound capacity stages) (hi : stages[i]? = some old)
    (hshift : Shift capacity (lock, old) (lock', new)) (ticket : Ticket)
    (hwriting : .writing ticket ∈ stages.set i new) : .reading ∉ stages.set i new := by
  intro hreading
  have hold := h.apart ticket
  cases hshift with
  | announce | arrive | draw | leaveRead | leaveWrite =>
    rcases List.mem_or_eq_of_mem_set hwriting with hw | hw
    · rcases List.mem_or_eq_of_mem_set hreading with hr | hr
      · exact hold hw hr
      · cases hr
    · cases hw
  | startRead hfree =>
    rcases List.mem_or_eq_of_mem_set hwriting with hw | hw
    · rw [h.writers] at hfree
      exact List.countP_eq_zero.1 hfree _ hw rfl
    · cases hw
  | startWrite hhead hnone =>
    rcases List.mem_or_eq_of_mem_set hreading with hr | hr
    · have hpos := h.readersPresent_pos hr
      omega
    · cases hr

theorem shift (h : lock.Sound capacity stages) (hword : capacity < UInt64.size)
    (hi : stages[i]? = some old) (hshift : Shift capacity (lock, old) (lock', new)) :
    lock'.Sound capacity (stages.set i new) where
  writers := h.shift_writers hword hi hshift
  readers := h.shift_readers hi hshift
  seekers := h.shift_seekers hi hshift
  owners := h.shift_owners hi hshift
  length_le := h.shift_length_le hshift
  drawn := h.shift_drawn hi hshift
  front := h.shift_front hword hi hshift
  apart := h.shift_apart hi hshift

theorem shifts (h : lock.Sound capacity stages) (hword : capacity < UInt64.size)
    (hi : stages[i]? = some old) {outcome : State × Stage}
    (hshifts : Shifts capacity (lock, old) outcome) :
    outcome.1.Sound capacity (stages.set i outcome.2) :=
  keep_of_reflTransGen (fun h hi hshift => h.shift hword hi hshift) h hi hshifts

end State.Sound

/-! ## Crowds -/

namespace Crowd

/-- One writer at most, and no reader beside it; and the counters and the ring of the lock are what
they say they are. -/
structure Orderly (crowd : Crowd) : Prop where
  one_writer : crowd.stages.countP Stage.writes ≤ 1
  no_reader : ∀ ticket, .writing ticket ∈ crowd.stages → .reading ∉ crowd.stages
  writersActive_eq : crowd.lock.writersActive = crowd.stages.countP Stage.writes
  readersPresent_eq : crowd.lock.readersPresent = crowd.stages.countP Stage.reads
  slotWaiters_eq : crowd.lock.slotWaiters = crowd.stages.count .awaitingSlot
  ring_perm : crowd.lock.ring.Perm (crowd.stages.filterMap Stage.ticket?)
  ring_nodup : crowd.lock.ring.Nodup
  ring_length_le : crowd.lock.ring.length ≤ crowd.capacity
  ring_head : ∀ ticket, .writing ticket ∈ crowd.stages → crowd.lock.ring.head? = some ticket

/-- No step that is possible takes a counter below zero or the ticket of another thread off the ring,
no writer takes the lock from another one, and a lock that nobody uses is as good as new. -/
structure Faultless (crowd : Crowd) : Prop where
  slotWaiters_pos : .awaitingSlot ∈ crowd.stages → 0 < crowd.lock.slotWaiters
  readersPresent_pos : .reading ∈ crowd.stages → 0 < crowd.lock.readersPresent
  writersActive_eq_one : ∀ ticket, .writing ticket ∈ crowd.stages →
    crowd.lock.writersActive = 1 ∧ crowd.lock.ring = ticket :: crowd.lock.ring.tail
  writersActive_eq_zero : ∀ action after, crowd.act action = some after →
    (crowd.stageOf action.thread).writes = false → (after.stageOf action.thread).writes = true →
    crowd.lock.writersActive = 0
  idle : (∀ stage ∈ crowd.stages, stage = .away) →
    crowd.lock = { nextTicket := crowd.lock.nextTicket }

variable {capacity count : Nat} {crowd after : Crowd} {action : Action}

theorem sound_act (hword : crowd.capacity < UInt64.size)
    (h : crowd.lock.Sound crowd.capacity crowd.stages) (hact : crowd.act action = some after) :
    after.capacity = crowd.capacity ∧ after.lock.Sound crowd.capacity after.stages := by
  obtain ⟨old, new, hold, hstages, hcapacity, hshifts⟩ := act_shifts h.slotWaiters_pos hact
  refine ⟨hcapacity, ?_⟩
  rw [hstages]
  exact h.shifts hword hold hshifts

theorem Reachable.sound (hword : capacity < UInt64.size) (h : Reachable capacity count crowd) :
    crowd.capacity = capacity ∧ crowd.lock.Sound crowd.capacity crowd.stages := by
  induction h with
  | start =>
    refine ⟨rfl, ?_⟩
    simp only [stages, ofSize, List.map_replicate]
    exact .start
  | step _ hstep ih =>
    obtain ⟨hcapacity, hsound⟩ := ih
    obtain ⟨action, hact⟩ := hstep
    obtain ⟨hsame, hafter⟩ := sound_act (hcapacity ▸ hword) hsound hact
    rw [hsame]
    exact ⟨hcapacity, hafter⟩

theorem orderly_of_sound (hword : crowd.capacity < UInt64.size)
    (h : crowd.lock.Sound crowd.capacity crowd.stages) : crowd.Orderly where
  one_writer := h.countP_writes_le hword
  no_reader := h.apart
  writersActive_eq := h.writers
  readersPresent_eq := h.readers
  slotWaiters_eq := h.seekers.trans countP_seeks
  ring_perm := h.ring_perm
  ring_nodup := h.nodup_ring hword
  ring_length_le := h.length_le
  ring_head := h.front

/-- A writer is granted the lock only while nobody writes: otherwise there would be two afterwards. -/
theorem writersActive_eq_zero_of_grant (hword : crowd.capacity < UInt64.size)
    (h : crowd.lock.Sound crowd.capacity crowd.stages) (hact : crowd.act action = some after)
    (hbefore : (crowd.stageOf action.thread).writes = false)
    (hafter : (after.stageOf action.thread).writes = true) : crowd.lock.writersActive = 0 := by
  obtain ⟨old, new, hold, hstages, -, hshifts⟩ := act_shifts h.slotWaiters_pos hact
  have hnew : after.stages[action.thread]? = some new := by
    rw [hstages]
    exact List.getElem?_set_self (List.getElem?_eq_some_iff.1 hold).1
  rw [stageOf_of_stages hold] at hbefore
  rw [stageOf_of_stages hnew] at hafter
  have hset := countP_set_add Stage.writes new hold
  have hone : (crowd.stages.set action.thread new).countP Stage.writes ≤ 1 :=
    (h.shifts hword hold hshifts).countP_writes_le hword
  rw [hbefore, hafter, Bool.toNat_false, Bool.toNat_true] at hset
  rw [h.writers]
  omega

theorem countP_eq_zero_of_away {stages : List Stage} {p : Stage → Bool} (hp : p .away = false)
    (haway : ∀ stage ∈ stages, stage = .away) : stages.countP p = 0 := by
  refine List.countP_eq_zero.2 fun stage hmem => ?_
  rw [haway stage hmem, hp]
  exact Bool.false_ne_true

theorem idle_of_sound (h : crowd.lock.Sound crowd.capacity crowd.stages)
    (haway : ∀ stage ∈ crowd.stages, stage = .away) :
    crowd.lock = { nextTicket := crowd.lock.nextTicket } := by
  have hreaders := h.readers.trans (countP_eq_zero_of_away rfl haway)
  have hwriters := h.writers.trans (countP_eq_zero_of_away rfl haway)
  have hseekers := h.seekers.trans (countP_eq_zero_of_away rfl haway)
  have hring : crowd.lock.ring = [] := by
    refine List.eq_nil_iff_forall_not_mem.2 fun ticket hmem => ?_
    have hpos := List.count_pos_iff.2 hmem
    rw [h.owners, countP_eq_zero_of_away rfl haway] at hpos
    exact Nat.lt_irrefl _ hpos
  obtain ⟨capacity, ⟨readersPresent, writersActive, ring, nextTicket, slotWaiters⟩, members⟩ := crowd
  cases hreaders
  cases hwriters
  cases hseekers
  cases hring
  rfl

/-- Mutual exclusion, for any number of threads and in every order of their steps. The capacity of a
lock is a machine word. -/
theorem Reachable.orderly (hword : capacity < UInt64.size) (h : Reachable capacity count crowd) :
    crowd.Orderly ∧ crowd.Faultless := by
  obtain ⟨hcapacity, hsound⟩ := h.sound hword
  rw [← hcapacity] at hword
  refine ⟨orderly_of_sound hword hsound, ?_⟩
  exact
    { slotWaiters_pos := hsound.slotWaiters_pos
      readersPresent_pos := hsound.readersPresent_pos
      writersActive_eq_one := fun ticket hmem =>
        ⟨hsound.writersActive_eq_one hword hmem, List.eq_cons_of_mem_head? (hsound.front ticket hmem)⟩
      writersActive_eq_zero := fun action after => writersActive_eq_zero_of_grant hword hsound
      idle := idle_of_sound hsound }

/-- A lock with one place in its ring, held by a writer, while a reader waits for the writer and another
writer waits for the place. -/
theorem Reachable.orderly_contended :
    ∃ crowd, Reachable 1 3 crowd ∧ crowd.stages = [.writing 0, .awaitingRead, .awaitingSlot] ∧
      crowd.Orderly ∧ crowd.Faultless :=
  have h : Reachable 1 3 _ :=
    .step (.step (.step .start ⟨.acquire 0 .write, rfl⟩) ⟨.acquire 1 .read, rfl⟩)
      ⟨.acquire 2 .write, rfl⟩
  ⟨_, h, rfl, Reachable.orderly (by decide) h⟩

end Crowd

end LineStore.Lock
