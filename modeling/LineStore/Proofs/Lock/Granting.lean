import LineStore.Lock.Direct

/-!
How far a request goes, said directly, does not depend on who goes on first.

A thread that may go on by itself, be it a reader, a writer outside the queue or the writer at the head of
it, may be let go on beforehand: then the others are let into the queue and granted the lock as if it had
not.
-/

namespace LineStore.Lock.Direct

variable {direct : Direct} {thread other : Nat} {standing : Standing}

/-- What follows of itself. -/
def outcome (direct : Direct) : Direct :=
  direct.enqueueAll.grant

@[simp] theorem place_standings (direct : Direct) (thread : Nat) (standing : Standing) :
    (direct.place thread standing).standings = direct.standings.set thread standing := rfl

@[simp] theorem place_queue (direct : Direct) (thread : Nat) (standing : Standing) :
    (direct.place thread standing).queue = direct.queue := rfl

@[simp] theorem place_capacity (direct : Direct) (thread : Nat) (standing : Standing) :
    (direct.place thread standing).capacity = direct.capacity := rfl

theorem getElem?_place_self {old : Standing} (h : direct.standings[thread]? = some old)
    (standing : Standing) : (direct.place thread standing).standings[thread]? = some standing :=
  List.getElem?_set_self (List.getElem?_eq_some_iff.1 h).1

theorem mem_place {old : Standing} (hmem : standing ∈ (direct.place thread old).standings)
    (hne : standing ≠ old) : standing ∈ direct.standings :=
  (List.mem_or_eq_of_mem_set hmem).resolve_right hne

/-! ### Letting into the queue -/

theorem enqueue_of_ne (h : direct.standings[thread]? ≠ some .outside) :
    direct.enqueue thread = direct :=
  if_neg fun hboth => h hboth.1

theorem enqueue_of_full (h : direct.capacity ≤ direct.queue.length) :
    direct.enqueue thread = direct :=
  if_neg fun hboth => Nat.not_lt.2 h hboth.2

theorem enqueue_place_of_ne (hne : other ≠ thread) :
    (direct.place thread standing).enqueue other = (direct.enqueue other).place thread standing := by
  have hget : (direct.standings.set thread standing)[other]? = direct.standings[other]? :=
    List.getElem?_set_ne hne.symm
  rw [enqueue, enqueue, place_standings, hget, place_queue, place_capacity]
  split
  · simp only [place, List.set_comm _ _ hne]
  · rfl

/-- Nothing but this is done by letting threads into the queue: a thread outside gets a place in it, and
it grows at its end. -/
structure Grows (before after : Direct) : Prop where
  keeps : ∀ (thread : Nat) (standing : Standing), standing ≠ .outside →
    before.standings[thread]? = some standing → after.standings[thread]? = some standing
  old : ∀ (thread : Nat) (standing : Standing), standing ≠ .queued →
    after.standings[thread]? = some standing → before.standings[thread]? = some standing
  queue : before.queue <+: after.queue

theorem Grows.refl : direct.Grows direct :=
  ⟨fun _ _ _ h => h, fun _ _ _ h => h, List.prefix_rfl⟩

theorem Grows.trans {before between after : Direct} (hfirst : before.Grows between)
    (hsecond : between.Grows after) : before.Grows after where
  keeps thread standing hne h := hsecond.keeps thread standing hne (hfirst.keeps thread standing hne h)
  old thread standing hne h := hfirst.old thread standing hne (hsecond.old thread standing hne h)
  queue := hfirst.queue.trans hsecond.queue

theorem Grows.notMem {before after : Direct} (h : before.Grows after) (hne : standing ≠ .queued)
    (hnot : standing ∉ before.standings) : standing ∉ after.standings := by
  intro hmem
  obtain ⟨thread, hget⟩ := List.mem_iff_getElem?.1 hmem
  exact hnot (List.mem_of_getElem? (h.old thread standing hne hget))

theorem grows_enqueue : direct.Grows (direct.enqueue thread) := by
  rw [enqueue]
  split
  · rename_i houtside
    refine ⟨fun other standing hne h => ?_, fun other standing hne h => ?_, List.prefix_append ..⟩
    · have hother : thread ≠ other := by
        rintro rfl
        exact hne (Option.some_inj.1 (h.symm.trans houtside.1))
      rwa [place_standings, List.getElem?_set_ne hother]
    · by_cases hother : thread = other
      · subst hother
        rw [getElem?_place_self houtside.1, Option.some_inj] at h
        exact absurd h.symm hne
      · rwa [place_standings, List.getElem?_set_ne hother] at h
  · exact .refl

theorem grows_enqueueAll : direct.Grows direct.enqueueAll := by
  rw [enqueueAll]
  generalize List.range direct.standings.length = threads
  induction threads generalizing direct with
  | nil => exact .refl
  | cons thread threads ih => exact grows_enqueue.trans ih

/-- A thread that is not outside may change its standing before or after the others are let in. -/
theorem enqueueAll_place (hold : direct.standings[thread]? ≠ some .outside)
    (hnew : standing ≠ .outside) :
    (direct.place thread standing).enqueueAll = direct.enqueueAll.place thread standing := by
  rw [enqueueAll, enqueueAll, place_standings, List.length_set]
  generalize List.range direct.standings.length = threads
  induction threads generalizing direct with
  | nil => rfl
  | cons first threads ih =>
    have hfirst : (direct.place thread standing).enqueue first =
        (direct.enqueue first).place thread standing := by
      by_cases heq : first = thread
      · subst heq
        have hplaced : (direct.place first standing).standings[first]? ≠ some .outside := by
          intro h
          have hlt := (List.getElem?_eq_some_iff.1 h).1
          rw [place_standings, List.length_set] at hlt
          rw [place_standings, List.getElem?_set_self hlt, Option.some_inj] at h
          exact hnew h
        rw [enqueue_of_ne hold, enqueue_of_ne hplaced]
      · exact enqueue_place_of_ne heq
    rw [List.foldl_cons, List.foldl_cons, hfirst]
    exact ih fun h => hold (grows_enqueue.old thread .outside (by simp) h)

theorem foldl_enqueue_of_eq (h : ∀ other, direct.enqueue other = direct) (threads : List Nat) :
    threads.foldl enqueue direct = direct := by
  induction threads with
  | nil => rfl
  | cons first threads ih => rw [List.foldl_cons, h, ih]

/-- Where one thread is outside, letting it in beforehand is all that would be done. -/
theorem enqueueAll_enqueue (h : direct.standings[thread]? = some .outside)
    (hroom : direct.queue.length < direct.capacity)
    (hlone : ∀ other, direct.standings[other]? = some .outside → other = thread) :
    (direct.enqueue thread).enqueueAll = direct.enqueueAll := by
  have hothers (other : Nat) (hne : other ≠ thread) : direct.enqueue other = direct :=
    enqueue_of_ne fun houtside => hne (hlone other houtside)
  have hdone (other : Nat) : (direct.enqueue thread).enqueue other = direct.enqueue thread := by
    refine enqueue_of_ne fun houtside => ?_
    have hother := hlone other (grows_enqueue.old other .outside (by simp) houtside)
    rw [enqueue, if_pos ⟨h, hroom⟩, hother] at houtside
    exact absurd ((getElem?_place_self h .queued).symm.trans houtside) (by simp)
  have hall (threads : List Nat) (hmem : thread ∈ threads) :
      threads.foldl enqueue direct = direct.enqueue thread := by
    induction threads with
    | nil => cases hmem
    | cons first threads ih =>
      rw [List.foldl_cons]
      by_cases hfirst : first = thread
      · rw [hfirst, foldl_enqueue_of_eq hdone]
      · rw [hothers first hfirst, ih ((List.mem_cons.1 hmem).resolve_left (Ne.symm hfirst))]
  rw [enqueueAll, foldl_enqueue_of_eq hdone, enqueueAll, hall]
  exact List.mem_range.2 (List.getElem?_eq_some_iff.1 h).1

/-! ### Granting -/

theorem grant_of_writing (h : .writing ∈ direct.standings) : direct.grant = direct :=
  if_pos h

/-- An announced reader that goes on beforehand goes on in any case. -/
theorem grant_place_reading (hidle : .writing ∉ direct.standings)
    (h : direct.standings[thread]? = some .announced) :
    (direct.place thread .reading).grant = direct.grant := by
  have hplaced : .writing ∉ (direct.place thread .reading).standings := fun hmem =>
    hidle (mem_place hmem (by simp))
  have hreading : .reading ∈ (direct.place thread .reading).standings :=
    List.mem_of_getElem? (getElem?_place_self h .reading)
  rw [grant, if_neg hplaced, if_pos (.inr hreading), grant, if_neg hidle,
    if_pos (.inl (List.mem_of_getElem? h))]
  simp only [grantReaders, place, List.map_set]
  refine congrArg (fun standings => { direct with standings }) (List.ext_getElem? fun other => ?_)
  rw [List.getElem?_set]
  split
  · rename_i heq
    obtain ⟨hlt, hget⟩ := List.getElem?_eq_some_iff.1 h
    simp [← heq, hlt, hget]
  · rfl

theorem grant_of_head (hidle : .writing ∉ direct.standings) (hannounced : .announced ∉ direct.standings)
    (hreading : .reading ∉ direct.standings) (hhead : direct.queue.head? = some thread) :
    direct.grant = direct.place thread .writing := by
  rw [grant, if_neg hidle, if_neg (not_or.2 ⟨hannounced, hreading⟩), hhead]

theorem grantReaders_of_notMem (h : .announced ∉ direct.standings) : direct.grantReaders = direct := by
  have hmap : (direct.standings.map fun standing => if standing = .announced then .reading else standing) =
      direct.standings.map id :=
    List.map_congr_left fun standing hmem => if_neg fun heq : standing = .announced => h (heq ▸ hmem)
  rw [grantReaders, hmap, List.map_id]

/-! ### The whole -/

theorem outcome_place_reading (hidle : .writing ∉ direct.standings)
    (h : direct.standings[thread]? = some .announced) :
    (direct.place thread .reading).outcome = direct.outcome := by
  rw [outcome, enqueueAll_place (by simp [h]) (by simp), grant_place_reading, outcome]
  · exact grows_enqueueAll.notMem (by simp) hidle
  · exact grows_enqueueAll.keeps thread .announced (by simp) h

theorem outcome_enqueue (h : direct.standings[thread]? = some .outside)
    (hroom : direct.queue.length < direct.capacity)
    (hlone : ∀ other, direct.standings[other]? = some .outside → other = thread) :
    (direct.enqueue thread).outcome = direct.outcome := by
  rw [outcome, enqueueAll_enqueue h hroom hlone, outcome]

theorem outcome_place_writing (hidle : .writing ∉ direct.standings)
    (hannounced : .announced ∉ direct.standings) (hreading : .reading ∉ direct.standings)
    (h : direct.standings[thread]? = some .queued) (hhead : direct.queue.head? = some thread) :
    (direct.place thread .writing).outcome = direct.outcome := by
  have hgrows : direct.Grows direct.enqueueAll := grows_enqueueAll
  have hplaced : .writing ∈ (direct.enqueueAll.place thread .writing).standings :=
    List.mem_of_getElem? (getElem?_place_self (hgrows.keeps thread .queued (by simp) h) .writing)
  rw [outcome, enqueueAll_place (by simp [h]) (by simp), grant_of_writing hplaced, outcome]
  refine (grant_of_head (hgrows.notMem (by simp) hidle) (hgrows.notMem (by simp) hannounced)
    (hgrows.notMem (by simp) hreading) ?_).symm
  obtain ⟨others, hqueue⟩ := hgrows.queue
  rw [← hqueue, List.head?_append, hhead]
  rfl

/-- Nothing follows where the queue is full if a thread is outside it, and where a writer is active if a
reader waits, and a writer or a reader if the queue holds a thread. -/
theorem outcome_eq_self (houtside : .outside ∈ direct.standings → direct.capacity ≤ direct.queue.length)
    (hannounced : .writing ∉ direct.standings → .announced ∉ direct.standings)
    (hqueue : .writing ∉ direct.standings → .reading ∉ direct.standings → direct.queue = []) :
    direct.outcome = direct := by
  have hthread (thread : Nat) : direct.enqueue thread = direct := by
    by_cases h : direct.standings[thread]? = some .outside
    · exact enqueue_of_full (houtside (List.mem_of_getElem? h))
    · exact enqueue_of_ne h
  rw [outcome, enqueueAll, foldl_enqueue_of_eq hthread, grant]
  split
  · rfl
  · rename_i hidle
    split
    · exact grantReaders_of_notMem (hannounced hidle)
    · rename_i hnone
      rw [hqueue hidle (not_or.1 hnone).2]
      rfl

end LineStore.Lock.Direct
