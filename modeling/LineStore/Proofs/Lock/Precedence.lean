import LineStore.Lock.Run
import LineStore.Proofs.Lock.Access
import Mathlib.Data.Nat.Find

/-!
A reader waits for one writer at most.

Whoever is granted write access leaves no announced reader behind it, so from the step in which a reader
announces itself until it gives up the lock nobody is. The writers that are queued meanwhile, and those that
have been woken already, find the reader announced when they look.
-/

namespace LineStore.Lock

variable {capacity count : Nat}

namespace Stage

theorem reads_of_access? {stage : Stage} (h : stage.access? = some .read) : stage.reads = true := by
  cases stage with
  | awaitingRead | reading => rfl
  | away | awaitingSlot | awaitingTurn ticket | writing ticket => cases h

theorem access?_of_writes {stage : Stage} (h : stage.writes = true) : stage.access? = some .write := by
  obtain ⟨ticket, rfl⟩ := writing_of_writes h
  rfl

theorem holds_of_writes {stage : Stage} (h : stage.writes = true) : stage.holds = true := by
  obtain ⟨ticket, rfl⟩ := writing_of_writes h
  rfl

end Stage

/-! ### One action -/

/-- A writer takes the lock in a shift of its own, in which it has looked for readers. -/
theorem Shift.readersPresent_eq_zero {before after : State × Stage} (h : Shift capacity before after)
    (hwrites : after.2.writes = true) : after.1.readersPresent = 0 := by
  cases h with
  | startWrite _ hnone => exact hnone
  | announce | startRead | arrive | draw | leaveRead | leaveWrite => cases hwrites

theorem Advances.readersPresent_eq_zero {before after : State × Stage}
    (h : Advances capacity before after) (hbefore : before.2.writes = false)
    (hafter : after.2.writes = true) : after.1.readersPresent = 0 := by
  cases h with
  | refl =>
    rw [hbefore] at hafter
    cases hafter
  | tail _ hlast => exact hlast.1.readersPresent_eq_zero hafter

theorem Crowd.readersPresent_eq_zero_of_grant {crowd after : Crowd} {action : Action}
    (hsound : crowd.lock.Sound crowd.capacity crowd.stages) (hact : crowd.act action = some after)
    (hbefore : (crowd.stageOf action.thread).writes = false)
    (hafter : (after.stageOf action.thread).writes = true) : after.lock.readersPresent = 0 := by
  obtain ⟨old, new, hold, hstages, -, hmoves⟩ := act_advances hsound.slotWaiters_pos hact
  have hnew : after.stages[action.thread]? = some new := by
    rw [hstages]
    exact List.getElem?_set_self (List.getElem?_eq_some_iff.1 hold).1
  rw [stageOf_of_stages hold] at hbefore
  rw [stageOf_of_stages hnew] at hafter
  rcases hmoves with hadvances | hshift
  · exact hadvances.readersPresent_eq_zero hbefore hafter
  · exact hshift.readersPresent_eq_zero hafter

namespace Run

variable (run : Run capacity count) {reader writer thread since n : Nat}

theorem reachable (n : Nat) : Crowd.Reachable capacity count (run.state n) := by
  induction n with
  | zero =>
    rw [run.start]
    exact .start
  | succ n ih =>
    cases haction : run.action? n with
    | none => rwa [run.rests n haction]
    | some action => exact ih.step ⟨action, run.acts n action haction⟩

variable {run} (hword : capacity < UInt64.size)

/-! ### One step -/

section

include hword

theorem leads {action : Action} (h : run.action? n = some action) :
    action.Leads (run.stageAt n action.thread) (run.stageAt (n + 1) action.thread) :=
  Crowd.act_leads ((run.reachable n).watchful hword) (run.acts n action h)

/-- A thread that does nothing in a step stands where it stood. -/
theorem stageAt_succ (h : ∀ action, run.action? n = some action → thread ≠ action.thread) :
    run.stageAt (n + 1) thread = run.stageAt n thread := by
  cases haction : run.action? n with
  | none => rw [stageAt, run.rests n haction, stageAt]
  | some action =>
    exact Crowd.stageOf_act_of_ne hword (run.reachable n) (run.acts n action haction) (h action haction)

theorem Begins.exists_action {kind : Stage → Bool} (h : run.Begins kind thread n) :
    ∃ action, run.action? n = some action ∧ thread = action.thread := by
  by_contra hnone
  obtain ⟨hbefore, hafter⟩ := h
  rw [stageAt_succ hword fun action haction heq => hnone ⟨action, haction, heq⟩, hbefore] at hafter
  cases hafter

/-- Who has asked for access and does not give it up is after it still. -/
theorem access?_succ {access : Access} (haccess : (run.stageAt n thread).access? = some access)
    (hstays : run.action? n ≠ some (.release thread)) :
    (run.stageAt (n + 1) thread).access? = some access := by
  by_cases hidle : ∀ action, run.action? n = some action → thread ≠ action.thread
  · rwa [stageAt_succ hword hidle]
  · simp only [not_forall, not_not] at hidle
    obtain ⟨action, haction, rfl⟩ := hidle
    have hleads := leads hword haction
    cases action with
    | acquire thread wanted =>
      rw [hleads.1] at haccess
      cases haccess
    | release thread => exact absurd haction hstays
    | resume thread | rouse thread => exact hleads.2.trans haccess

/-- While a reader is announced nobody is granted write access. -/
theorem not_begins_writes (hreads : (run.stageAt n reader).access? = some .read) :
    ¬ run.Begins Stage.writes writer n := by
  intro hgrant
  obtain ⟨action, haction, rfl⟩ := hgrant.exists_action hword
  have hwrites := Stage.access?_of_writes hgrant.2
  have hother : reader ≠ action.thread := by
    rintro rfl
    have hstays : run.action? n ≠ some (.release action.thread) := by
      intro hrelease
      have haway : run.stageAt (n + 1) action.thread = .away := (leads hword hrelease).2
      rw [haway] at hwrites
      cases hwrites
    rw [access?_succ hword hreads hstays] at hwrites
    cases hwrites
  have hstays : run.action? n ≠ some (.release reader) := by
    intro hrelease
    cases haction.symm.trans hrelease
    exact hother rfl
  have hafter := access?_succ hword hreads hstays
  have hzero := Crowd.readersPresent_eq_zero_of_grant ((run.reachable n).sound hword).2
    (run.acts n action haction) hgrant.1 hgrant.2
  rw [((run.reachable (n + 1)).sound hword).2.readers] at hzero
  have hpresent : (run.state (n + 1)).stages[reader]? = some (run.stageAt (n + 1) reader) := by
    refine Crowd.getElem?_stages_of_ne_away fun haway => ?_
    rw [stageAt, haway] at hafter
    cases hafter
  exact absurd (Stage.reads_of_access? hafter)
    (List.countP_eq_zero.1 hzero _ (List.mem_of_getElem? hpresent))

end

/-! ### Many steps -/

/-- What is not so at first and is so later begins in between. -/
theorem exists_begins {kind : Stage → Bool} {first last : Nat} (hle : first ≤ last)
    (hfirst : kind (run.stageAt first thread) = false)
    (hlast : kind (run.stageAt last thread) = true) :
    ∃ n, first ≤ n ∧ n < last ∧ run.Begins kind thread n := by
  induction last, hle using Nat.le_induction with
  | base =>
    rw [hfirst] at hlast
    cases hlast
  | succ last hle ih =>
    cases hkind : kind (run.stageAt last thread) with
    | false => exact ⟨last, hle, Nat.lt_succ_self last, hkind, hlast⟩
    | true =>
      obtain ⟨n, hn, hlt, hbegins⟩ := ih hkind
      exact ⟨n, hn, Nat.lt_succ_of_lt hlt, hbegins⟩

include hword

theorem Present.access? (h : run.Present reader since n) :
    (run.stageAt n reader).access? = some .read := by
  obtain ⟨hacquire, hlt, hstays⟩ := h
  induction n, hlt using Nat.le_induction with
  | base => exact (leads hword hacquire).2
  | succ n hle ih =>
    exact access?_succ hword (ih fun k hk hkn => hstays k hk (Nat.lt_succ_of_lt hkn))
      (hstays n hle (Nat.lt_succ_self n))

/-- From its announcement on, and as long as a reader has not left, nobody is granted write access. -/
theorem Present.not_begins_writes (h : run.Present reader since n) {k : Nat} (hsince : since ≤ k)
    (hk : k ≤ n) : ¬ run.Begins Stage.writes writer k := by
  rcases Nat.eq_or_lt_of_le hsince with rfl | hlt
  · intro hgrant
    obtain ⟨action, haction, rfl⟩ := hgrant.exists_action hword
    have hwrites := Stage.access?_of_writes hgrant.2
    cases haction.symm.trans h.1
    cases (leads hword h.1).2.symm.trans hwrites
  · have hpresent : run.Present reader since k :=
      ⟨h.1, hlt, fun j hj hjk => h.2.2 j hj (Nat.lt_of_lt_of_le hjk hk)⟩
    exact Run.not_begins_writes hword (hpresent.access? hword)

/-- Who writes while a reader is there has done so since before the reader announced itself. -/
theorem Present.writes_before (h : run.Present reader since n)
    (hwrites : (run.stageAt n writer).writes = true) {k : Nat} (hsince : since ≤ k) (hk : k ≤ n) :
    (run.stageAt k writer).writes = true := by
  by_contra hnot
  obtain ⟨m, hkm, hmn, hgrant⟩ := exists_begins hk (Bool.eq_false_iff.2 hnot) hwrites
  exact h.not_begins_writes hword (Nat.le_trans hsince hkm) (Nat.le_of_lt hmn) hgrant

/-- A reader that is there when a writer gives up the lock has left before the next one is granted it. -/
theorem Present.leaves {k : Nat} (h : run.Present reader since k) (hkn : k < n)
    (hstays : run.action? k ≠ some (.release reader)) (hgrant : run.Begins Stage.writes writer n) :
    ∃ left, k < left ∧ left < n ∧ run.Present reader since left ∧
      run.action? left = some (.release reader) := by
  classical
  have hleaves : ∃ left, k < left ∧ left < n ∧ run.action? left = some (.release reader) := by
    by_contra hnone
    have hpresent : run.Present reader since n := by
      refine ⟨h.1, Nat.lt_trans h.2.1 hkn, fun j hj hjn hrelease => ?_⟩
      rcases Nat.lt_trichotomy j k with hjk | rfl | hkj
      · exact h.2.2 j hj hjk hrelease
      · exact hstays hrelease
      · exact hnone ⟨j, hkj, hjn, hrelease⟩
    exact hpresent.not_begins_writes hword (Nat.le_of_lt hpresent.2.1) (Nat.le_refl n) hgrant
  -- its first release after that is the one that goes with its announcement
  obtain ⟨hleft, hbefore, hrelease⟩ := Nat.find_spec hleaves
  refine ⟨Nat.find hleaves, hleft, hbefore, ⟨h.1, Nat.lt_trans h.2.1 hleft, ?_⟩, hrelease⟩
  intro j hj hjleft hleave
  rcases Nat.lt_trichotomy j k with hjk | rfl | hkj
  · exact h.2.2 j hj hjk hleave
  · exact hstays hleave
  · exact Nat.find_min hleaves hjleft ⟨hkj, Nat.lt_trans hjleft hbefore, hleave⟩

/-- One thread at most writes while a reader is there that announced itself in the step `since`. -/
theorem exists_active (run : Run capacity count) (since : Nat) :
    ∃ active, ∀ reader n, run.Present reader since n →
      ∀ writer, (run.stageAt n writer).writes = true →
        writer = active ∧ ∀ k, since ≤ k → k ≤ n → (run.stageAt k active).writes = true := by
  have hbefore {reader n writer : Nat} (h : run.Present reader since n)
      (hwrites : (run.stageAt n writer).writes = true) : (run.stageAt since writer).writes = true :=
    h.writes_before hword hwrites (Nat.le_refl _) (Nat.le_of_lt h.2.1)
  by_cases hactive : ∃ active, (run.stageAt since active).writes = true
  · obtain ⟨active, hwrites⟩ := hactive
    refine ⟨active, fun reader n h writer hwriter => ?_⟩
    have hsame : writer = active :=
      (run.reachable since).alone hword (Stage.access?_of_writes (hbefore h hwriter))
        (Stage.holds_of_writes (hbefore h hwriter)) (Stage.holds_of_writes hwrites)
    exact ⟨hsame, fun k hsince hk => hsame ▸ h.writes_before hword hwriter hsince hk⟩
  · exact ⟨0, fun reader n h writer hwriter => absurd ⟨writer, hbefore h hwriter⟩ hactive⟩

/-- A reader that is there when a writer gives up the lock is granted it, and gives it up, before another
writer is granted it. -/
theorem Present.goes_before {leaving k : Nat} (h : run.Present reader since k)
    (hleave : run.action? k = some (.release leaving))
    (hwrites : (run.stageAt k leaving).writes = true) (hkn : k < n)
    (hgrant : run.Begins Stage.writes writer n) :
    ∃ granted left, k < granted ∧ granted < left ∧ left < n ∧
      run.Begins Stage.holds reader granted ∧
      run.Present reader since left ∧ run.action? left = some (.release reader) := by
  have hother : reader ≠ leaving := by
    rintro rfl
    have hread := h.access? hword
    rw [Stage.access?_of_writes hwrites] at hread
    cases hread
  have hstays : run.action? k ≠ some (.release reader) := by
    intro hrelease
    cases hleave.symm.trans hrelease
    exact hother rfl
  obtain ⟨left, hkleft, hleft, hpresent, hrelease⟩ := h.leaves hword hkn hstays hgrant
  -- nobody else has the lock while the writer does
  have hwaits : (run.stageAt k reader).holds = false := by
    by_contra hholds
    exact hother ((run.reachable k).alone hword (Stage.access?_of_writes hwrites)
      (Stage.holds_of_writes hwrites) (Bool.not_eq_false _ ▸ hholds)).symm
  have hidle : run.stageAt (k + 1) reader = run.stageAt k reader := by
    refine stageAt_succ hword fun action haction => ?_
    cases hleave.symm.trans haction
    exact hother
  obtain ⟨granted, hgranted, hlt, hbegins⟩ :=
    exists_begins hkleft (hidle ▸ hwaits) (leads hword hrelease).1
  exact ⟨granted, left, hgranted, hlt, hleft, hbegins, hpresent, hrelease⟩

/-- A reader waits for one writer at most, in every run and however many writers are queued. From the step in
which it announces itself to the one in which it gives up the lock nobody is granted write access. So there
is one writer that can have the lock meanwhile, and it has had it since before the announcement. And when a
writer gives up the lock, every reader that is there is granted it and gives it up before another writer is
granted it. -/
theorem readers_first (run : Run capacity count) :
    (∀ reader since n, run.Present reader since n → ∀ k, since ≤ k → k ≤ n →
      ∀ writer, ¬ run.Begins Stage.writes writer k) ∧
    (∀ reader since, ∃ active, ∀ n, run.Present reader since n →
      ∀ writer, (run.stageAt n writer).writes = true →
        writer = active ∧ ∀ k, since ≤ k → k ≤ n → (run.stageAt k active).writes = true) ∧
    ∀ leaving k, run.action? k = some (.release leaving) →
      (run.stageAt k leaving).writes = true →
      ∀ reader since, run.Present reader since k →
        ∀ next n, k < n → run.Begins Stage.writes next n →
          ∃ granted left, k < granted ∧ granted < left ∧ left < n ∧
            run.Begins Stage.holds reader granted ∧
            run.Present reader since left ∧ run.action? left = some (.release reader) := by
  refine ⟨?_, fun reader since => ?_, ?_⟩
  · intro reader since n h k hsince hk writer
    exact h.not_begins_writes hword hsince hk
  · obtain ⟨active, hactive⟩ := exists_active hword run since
    exact ⟨active, hactive reader⟩
  · intro leaving k hleave hwrites reader since h next n hkn hgrant
    exact h.goes_before hword hleave hwrites hkn hgrant

omit hword in
/-- A writer with the lock, one that is queued, and a reader that comes last. The queued writer wakes and looks
again before the reader is granted the lock and once more while it reads. -/
theorem readers_first_contended :
    ∃ run : Run 2 3, run.Present 2 2 9 ∧ run.Begins Stage.writes 1 11 ∧
      (∀ writer, ¬ run.Begins Stage.writes writer 6) ∧
      (∀ writer, (run.stageAt 4 writer).writes = true → (run.stageAt 2 writer).writes = true) ∧
      ∃ granted left, 4 < granted ∧ granted < left ∧ left < 11 ∧ run.Begins Stage.holds 2 granted ∧
        run.action? left = some (.release 2) := by
  let script : List Action :=
    [.acquire 0 .write, .acquire 1 .write, .acquire 2 .read, .rouse 1, .release 0, .rouse 1, .resume 1,
      .resume 2, .rouse 1, .resume 1, .release 2, .resume 1]
  let run : Run 2 3 := .ofScript 2 3 (script[·]?)
  have hstays : ∀ k < 10, run.action? k ≠ some (.release 2) := by decide +kernel
  have hpresent (n : Nat) (hlt : 2 < n) (hn : n ≤ 10) : run.Present 2 2 n :=
    ⟨by decide +kernel, hlt, fun k _ hk => hstays k (Nat.lt_of_lt_of_le hk hn)⟩
  have hgrant : run.Begins Stage.writes 1 11 := ⟨by decide +kernel, by decide +kernel⟩
  obtain ⟨hnone, hactive, hleave⟩ := readers_first (by decide) run
  refine ⟨run, hpresent 9 (by decide) (by decide), hgrant,
    hnone 2 2 9 (hpresent 9 (by decide) (by decide)) 6 (by decide) (by decide),
    fun writer hwrites => ?_, ?_⟩
  · obtain ⟨active, hall⟩ := hactive 2 2
    obtain ⟨rfl, hsince⟩ := hall 4 (hpresent 4 (by decide) (by decide)) writer hwrites
    exact hsince 2 (by decide) (by decide)
  · obtain ⟨granted, left, hgranted, hlt, hleft, hbegins, -, hrelease⟩ :=
      hleave 0 4 (by decide +kernel) (by decide +kernel) 2 2 (hpresent 4 (by decide) (by decide)) 1 11
        (by decide) hgrant
    exact ⟨granted, left, hgranted, hlt, hleft, hbegins, hrelease⟩

end Run

end LineStore.Lock
