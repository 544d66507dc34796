import LineStore.Proofs.Lock.Granting
import LineStore.Proofs.Lock.Queue
import LineStore.Proofs.Lock.Wakeups

/-!
A lock and its threads as their direct description has them.

What a waiting thread does once it may go on is one of three changes of the description, and none of them
changes what follows of itself. Where nobody may go on, nothing follows. The description says all there is
to say but for the number of the first ticket.
-/

namespace LineStore.Lock

variable {capacity : Nat} {lock lock' : State} {stages stages' : List Stage} {old new : Stage} {i : Nat}

/-! ### The numbers of the tickets -/

/-- The ticket at the head of the ring, or the next one if the ring is empty. -/
def State.firstTicket (lock : State) : Ticket :=
  lock.nextTicket - UInt64.ofNat lock.ring.length

theorem State.Sound.ring_eq (h : lock.Sound capacity stages) :
    lock.ring = (List.range lock.ring.length).map (lock.firstTicket + UInt64.ofNat ·) := by
  obtain ⟨served, hring, hnext⟩ := h.drawn
  have hfirst : lock.firstTicket = UInt64.ofNat served := by
    rw [firstTicket, hnext, UInt64.ofNat_add, UInt64.add_sub_cancel]
  rw [hfirst]
  conv_lhs => rw [hring, List.range'_eq_map_range, List.map_map]
  exact List.map_congr_left fun number _ => UInt64.ofNat_add ..

theorem State.firstTicket_shift (hwaits : old.waits = true)
    (hshift : Shift capacity (lock, old) (lock', new)) : lock'.firstTicket = lock.firstTicket := by
  cases hshift with
  | announce | arrive | leaveRead | leaveWrite => cases hwaits
  | startRead | startWrite => rfl
  | draw =>
    have hone : UInt64.ofNat 1 = 1 := rfl
    simp only [firstTicket, List.length_append, List.length_singleton, UInt64.ofNat_add]
    grind

/-! ### Descriptions -/

theorem Stage.eq_of_standing {stage other : Stage} (h : Standing.ofStage stage = Standing.ofStage other)
    (hticket : stage.ticket? = other.ticket?) : stage = other := by
  cases stage <;> cases other <;> simp_all [Standing.ofStage, ticket?]

/-- Whether a description tells of these threads how they stand with the lock. -/
structure Direct.Views (direct : Direct) (capacity : Nat) (lock : State) (stages : List Stage) :
    Prop where
  capacity_eq : direct.capacity = capacity
  standings_eq : direct.standings = stages.map Standing.ofStage
  queue_eq : direct.queue.map (ticketAt stages) = lock.ring.map some

namespace Direct.Views

variable {direct other : Direct} (h : direct.Views capacity lock stages)
include h

theorem standing {stage : Stage} (hi : stages[i]? = some stage) :
    direct.standings[i]? = some (.ofStage stage) := by
  rw [h.standings_eq, List.getElem?_map, hi]
  rfl

theorem mem_standings {standing : Standing} (hmem : standing ∈ direct.standings) :
    ∃ stage ∈ stages, Standing.ofStage stage = standing := by
  rwa [h.standings_eq, List.mem_map] at hmem

theorem writing_notMem (hsound : lock.Sound capacity stages) (hidle : lock.writersActive = 0) :
    .writing ∉ direct.standings := by
  intro hmem
  obtain ⟨stage, hstage, hwriting⟩ := h.mem_standings hmem
  rw [hsound.writers] at hidle
  refine List.countP_eq_zero.1 hidle stage hstage ?_
  cases stage <;> simp_all [Standing.ofStage, Stage.writes]

theorem reader_notMem (hsound : lock.Sound capacity stages) (hnone : lock.readersPresent = 0) :
    .announced ∉ direct.standings ∧ .reading ∉ direct.standings := by
  rw [hsound.readers] at hnone
  constructor <;> intro hmem <;> obtain ⟨stage, hstage, hreads⟩ := h.mem_standings hmem <;>
    refine List.countP_eq_zero.1 hnone stage hstage ?_ <;>
    cases stage <;> simp_all [Standing.ofStage, Stage.reads]

/-! ### Changes -/

theorem place (hi : stages[i]? = some old) (hsame : new.ticket? = old.ticket?)
    (hring : lock'.ring = lock.ring) :
    (direct.place i (.ofStage new)).Views capacity lock' (stages.set i new) where
  capacity_eq := h.capacity_eq
  standings_eq := by rw [place_standings, h.standings_eq, List.map_set]
  queue_eq := by rw [place_queue, ticketAt_set_of_eq hi hsame, h.queue_eq, hring]

theorem length_queue : direct.queue.length = lock.ring.length :=
  State.length_queue h.queue_eq

theorem draw (hi : stages[i]? = some .awaitingSlot) (hroom : lock.ring.length < capacity)
    (waiters : Nat) :
    (direct.enqueue i).Views capacity
      { lock with
        slotWaiters := waiters
        nextTicket := lock.nextTicket + 1
        ring := lock.ring ++ [lock.nextTicket] }
      (stages.set i (.awaitingTurn lock.nextTicket)) := by
  have houtside : direct.standings[i]? = some .outside := h.standing hi
  rw [enqueue, if_pos ⟨houtside, by rwa [h.length_queue, h.capacity_eq]⟩]
  exact
    { capacity_eq := h.capacity_eq
      standings_eq := by rw [place_standings, h.standings_eq, List.map_set]; rfl
      queue_eq := State.queue_draw h.queue_eq hi rfl _ }

theorem leaveWrite {ticket : Ticket} (hsound : lock.Sound capacity stages)
    (hword : capacity < UInt64.size) (hi : stages[i]? = some (.writing ticket)) :
    Views { direct.place i .away with queue := direct.queue.tail } capacity
      { lock with writersActive := 0, ring := lock.ring.tail } (stages.set i .away) := by
  obtain ⟨rest, hqueue, hrest⟩ := State.queue_leaveWrite h.queue_eq hsound hword hi
  exact
    { capacity_eq := h.capacity_eq
      standings_eq := by rw [place_standings, h.standings_eq, List.map_set]; rfl
      queue_eq := by rw [hqueue]; exact hrest }

/-- A waiting thread that goes on does what would follow of itself, if only one is outside. -/
theorem shift (hsound : lock.Sound capacity stages) (hword : capacity < UInt64.size)
    (hlone : stages.countP Stage.seeks ≤ 1) (hi : stages[i]? = some old) (hwaits : old.waits = true)
    (hshift : Shift capacity (lock, old) (lock', new)) :
    ∃ after, Views after capacity lock' (stages.set i new) ∧ after.outcome = direct.outcome := by
  cases hshift with
  | announce | arrive | leaveRead | leaveWrite => cases hwaits
  | startRead hfree =>
    exact ⟨_, h.place hi rfl rfl,
      outcome_place_reading (h.writing_notMem hsound hfree) (h.standing hi)⟩
  | draw hroom =>
    refine ⟨_, h.draw hi hroom _, outcome_enqueue (h.standing hi) ?_ fun j houtside => ?_⟩
    · rwa [h.length_queue, h.capacity_eq]
    · -- two writers outside would race for the place
      rw [h.standings_eq, List.getElem?_map] at houtside
      obtain ⟨stage, hj, hstage⟩ := Option.map_eq_some_iff.1 houtside
      refine eq_of_countP_le_one hlone hj ?_ hi rfl
      cases stage <;> simp_all [Standing.ofStage, Stage.seeks]
  | startWrite hhead hnone =>
    have hidle := hsound.writersActive_eq_zero hword (List.mem_of_getElem? hi) hhead
    obtain ⟨hannounced, hreading⟩ := h.reader_notMem hsound hnone
    obtain ⟨rest, hqueue, -⟩ := State.queue_front h.queue_eq hsound hword hi rfl hhead
    refine ⟨_, h.place hi rfl rfl, outcome_place_writing (h.writing_notMem hsound hidle) hannounced
      hreading (h.standing hi) ?_⟩
    rw [hqueue]
    rfl

/-! ### Rest -/

/-- Where every waiting thread is blocked, nothing follows. -/
theorem outcome_eq_of_blocks (hsound : lock.Sound capacity stages)
    (hblocks : ∀ stage ∈ stages, stage.waits = true → lock.Blocks capacity stage) :
    direct.outcome = direct := by
  have hidle (hnot : .writing ∉ direct.standings) : lock.writersActive = 0 := by
    rw [hsound.writers]
    refine List.countP_eq_zero.2 fun stage hmem hwrites => hnot ?_
    rw [h.standings_eq]
    cases stage with
    | writing ticket => exact List.mem_map_of_mem hmem
    | _ => cases hwrites
  refine outcome_eq_self (fun hmem => ?_) (fun hnot hmem => ?_) (fun hnot hreading => ?_)
  · obtain ⟨stage, hstage, houtside⟩ := h.mem_standings hmem
    cases stage with
    | awaitingSlot =>
      rw [h.capacity_eq, h.length_queue]
      exact hblocks _ hstage rfl
    | _ => cases houtside
  · obtain ⟨stage, hstage, hannounced⟩ := h.mem_standings hmem
    cases stage with
    | awaitingRead => exact hblocks _ hstage rfl (hidle hnot)
    | _ => cases hannounced
  · have hring : lock.ring = [] := hsound.ring_eq_nil hblocks (hidle hnot) fun hmem => hreading ?_
    · rw [← List.length_eq_zero_iff, h.length_queue, hring, List.length_nil]
    · rw [h.standings_eq]
      exact List.mem_map_of_mem hmem

/-! ### What a description leaves open -/

/-- A thread with a ticket is in the queue. -/
theorem mem_queue (hsound : lock.Sound capacity stages) (hword : capacity < UInt64.size)
    {ticket : Ticket} (hi : ticketAt stages i = some ticket) : i ∈ direct.queue := by
  obtain ⟨stage, hstage, hticket⟩ := Option.bind_eq_some_iff.1 hi
  have hring : ticket ∈ lock.ring := by
    rw [← List.count_pos_iff, hsound.owners]
    exact List.countP_pos_iff.2 ⟨stage, List.mem_of_getElem? hstage, by simp [Stage.owns, hticket]⟩
  have hmem : some ticket ∈ direct.queue.map (ticketAt stages) := by
    rw [h.queue_eq]
    exact List.mem_map_of_mem hring
  obtain ⟨j, hj, hticketj⟩ := List.mem_map.1 hmem
  rwa [hsound.eq_of_ticketAt hword hi hticketj]

/-- There is one description. -/
theorem unique (hother : other.Views capacity lock stages) (hsound : lock.Sound capacity stages)
    (hword : capacity < UInt64.size) : direct = other := by
  have hqueue : direct.queue = other.queue := by
    have hlength : direct.queue.length = other.queue.length := by
      rw [h.length_queue, hother.length_queue]
    refine List.ext_getElem hlength fun k hk hk' => ?_
    have hticket : k < lock.ring.length := h.length_queue ▸ hk
    have hdirect : ticketAt stages direct.queue[k] = some lock.ring[k] := by
      simpa [hk, hticket] using congrArg (·[k]?) h.queue_eq
    have hsame : ticketAt stages other.queue[k] = some lock.ring[k] := by
      simpa [hk', hticket] using congrArg (·[k]?) hother.queue_eq
    exact hsound.eq_of_ticketAt hword hdirect hsame
  obtain ⟨_, _, _⟩ := direct
  obtain ⟨_, _, _⟩ := other
  cases h.capacity_eq
  cases hother.capacity_eq
  cases h.standings_eq
  cases hother.standings_eq
  cases hqueue
  rfl

/-- Two locks of one description are equal if their first tickets are, and so are their threads. -/
theorem scene_eq (h' : direct.Views capacity lock' stages') (hsound : lock.Sound capacity stages)
    (hsound' : lock'.Sound capacity stages') (hword : capacity < UInt64.size)
    (hfirst : lock.firstTicket = lock'.firstTicket) : lock = lock' ∧ stages = stages' := by
  have hlength : lock.ring.length = lock'.ring.length := by rw [← h.length_queue, h'.length_queue]
  have hring : lock.ring = lock'.ring := by rw [hsound.ring_eq, hsound'.ring_eq, hlength, hfirst]
  -- the ring tells the ticket of every thread in the queue, and nobody else has one
  have htickets : ∀ i ∈ direct.queue, ticketAt stages i = ticketAt stages' i :=
    List.map_inj_left.1 (h.queue_eq.trans (hring ▸ h'.queue_eq.symm))
  have hstages : stages = stages' := by
    refine List.ext_getElem? fun i => ?_
    have hstanding : stages[i]?.map Standing.ofStage = stages'[i]?.map Standing.ofStage := by
      rw [← List.getElem?_map, ← List.getElem?_map, ← h.standings_eq, ← h'.standings_eq]
    have hticket : ticketAt stages i = ticketAt stages' i := by
      by_cases hmem : i ∈ direct.queue
      · exact htickets i hmem
      · rw [Option.eq_none_iff_forall_ne_some.2 fun _ hi => hmem (h.mem_queue hsound hword hi),
          Option.eq_none_iff_forall_ne_some.2 fun _ hi => hmem (h'.mem_queue hsound' hword hi)]
    cases hi : stages[i]? with
    | none =>
      rw [hi] at hstanding
      exact (Option.map_eq_none_iff.1 hstanding.symm).symm
    | some stage =>
      rw [hi] at hstanding
      obtain ⟨stage', hi', hsame⟩ := Option.map_eq_some_iff.1 hstanding.symm
      rw [ticketAt_of_getElem? hi, ticketAt_of_getElem? hi'] at hticket
      rw [hi', Stage.eq_of_standing hsame hticket.symm]
  refine ⟨?_, hstages⟩
  subst hstages
  have hnext : lock.nextTicket = lock'.nextTicket := by
    simpa [State.firstTicket, hring] using hfirst
  obtain ⟨readersPresent, writersActive, ring, nextTicket, slotWaiters⟩ := lock
  obtain ⟨readersPresent', writersActive', ring', nextTicket', slotWaiters'⟩ := lock'
  cases hring
  cases hnext
  cases hsound.readers.trans hsound'.readers.symm
  cases hsound.writers.trans hsound'.writers.symm
  cases hsound.seekers.trans hsound'.seekers.symm
  rfl

theorem occupancy_eq (hsound : lock.Sound capacity stages) : lock.occupancy = direct.occupancy := by
  have hreaders : lock.readersPresent =
      direct.standings.countP fun standing => standing = .announced ∨ standing = .reading := by
    rw [hsound.readers, h.standings_eq, List.countP_map]
    refine List.countP_congr fun stage _ => ?_
    cases stage <;> simp [Stage.reads, Standing.ofStage]
  have hwriters : lock.writersActive = direct.standings.count .writing := by
    rw [hsound.writers, h.standings_eq, List.count, List.countP_map]
    refine List.countP_congr fun stage _ => ?_
    cases stage <;> simp [Stage.writes, Standing.ofStage]
  rw [State.occupancy, occupancy, hreaders, hwriters, h.length_queue]

end Direct.Views

theorem Direct.views_ofCrowd {crowd : Crowd} (hsound : crowd.lock.Sound crowd.capacity crowd.stages) :
    (ofCrowd crowd).Views crowd.capacity crowd.lock crowd.stages where
  capacity_eq := rfl
  standings_eq := by
    rw [Crowd.stages, List.map_map]
    rfl
  queue_eq := by
    rw [ofCrowd, List.map_filterMap, ← List.filterMap_eq_map]
    refine List.filterMap_congr fun ticket hmem => ?_
    have howned : 0 < crowd.stages.countP (Stage.owns ticket) := by
      rw [← hsound.owners]
      exact List.count_pos_iff.2 hmem
    obtain ⟨stage, hstage, howns⟩ := List.countP_pos_iff.1 howned
    obtain ⟨member, hmember, rfl⟩ := Crowd.mem_stages.1 hstage
    have hfound : (crowd.members.findIdx? fun member => member.stage.ticket? = some ticket).isSome := by
      rw [List.findIdx?_isSome, List.any_eq_true]
      exact ⟨member, hmember, howns⟩
    obtain ⟨i, hi⟩ := Option.isSome_iff_exists.1 hfound
    obtain ⟨hlt, hticket, -⟩ := List.findIdx?_eq_some_iff_getElem.1 hi
    rw [hi, Option.map_some, ticketAt, Crowd.stages_getElem?, List.getElem?_eq_getElem hlt]
    exact congrArg some (of_decide_eq_true hticket)

end LineStore.Lock
