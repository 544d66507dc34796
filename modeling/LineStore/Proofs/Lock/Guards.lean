import LineStore.Lock.Guarded
import LineStore.Proofs.Lock.Access

/-!
No update is lost, and who reads sees one value.

The value itself knows of no lock. `Guard.Fits` ties what a thread is about at the value to its stage at the
lock: only a thread that writes is between a read and a store, and it found the value as the writers
before it left it. Since a writer is alone at the lock, no step of another thread comes in between.
-/

namespace LineStore.Lock

variable {α : Type} {initial value : α} {grants : List (α → α)} {stage : Stage} {guard : Guard α}

/-! ### One thread -/

/-- What a thread at a stage can be about. -/
inductive Guard.Fits (initial value : α) (grants : List (α → α)) : Stage → Guard α → Prop where
  | away : Fits initial value grants .away .none
  | awaitingRead {since : Nat} : Fits initial value grants .awaitingRead (.reader since [])
  | reading {seen : List α} (hseen : ∀ found ∈ seen, found = Guarded.updated initial grants) :
      Fits initial value grants .reading (.reader grants.length seen)
  | awaitingSlot {update : α → α} : Fits initial value grants .awaitingSlot (.writer update .unread)
  | awaitingTurn {ticket : Ticket} {update : α → α} :
      Fits initial value grants (.awaitingTurn ticket) (.writer update .unread)
  | unread {ticket : Ticket} {update : α → α} {earlier : List (α → α)}
      (hgrants : grants = earlier ++ [update]) (hvalue : value = Guarded.updated initial earlier) :
      Fits initial value grants (.writing ticket) (.writer update .unread)
  | read {ticket : Ticket} {update : α → α} {earlier : List (α → α)}
      (hgrants : grants = earlier ++ [update]) (hvalue : value = Guarded.updated initial earlier) :
      Fits initial value grants (.writing ticket) (.writer update (.read value))
  | stored {ticket : Ticket} {update : α → α} (hvalue : value = Guarded.updated initial grants) :
      Fits initial value grants (.writing ticket) (.writer update .stored)

/-- What a thread that asks for this access, or waits for it, is about. -/
inductive Guard.Asks : Access → Guard α → Prop where
  | read {since : Nat} : Asks .read (.reader since [])
  | write {update : α → α} : Asks .write (.writer update .unread)

theorem Guard.Asks.exists_read (h : guard.Asks .read) : ∃ since, guard = .reader since [] := by
  cases h
  exact ⟨_, rfl⟩

theorem Guard.Asks.exists_write (h : guard.Asks .write) : ∃ update, guard = .writer update .unread := by
  cases h
  exact ⟨_, rfl⟩

namespace Guard.Fits

/-- Who does not hold the lock does not mind what becomes of the value. -/
theorem of_holds_eq_false (h : Fits initial value grants stage guard) (hholds : stage.holds = false)
    (value' : α) (grants' : List (α → α)) : Fits initial value' grants' stage guard := by
  cases h with
  | away => exact .away
  | awaitingRead => exact .awaitingRead
  | awaitingSlot => exact .awaitingSlot
  | awaitingTurn => exact .awaitingTurn
  | reading | unread | read | stored => cases hholds

theorem asks {access : Access} (h : Fits initial value grants stage guard)
    (hwaits : stage.waits = true) (haccess : stage.access? = some access) : guard.Asks access := by
  cases h with
  | awaitingRead => cases haccess; exact .read
  | awaitingSlot | awaitingTurn => cases haccess; exact .write
  | away | reading | unread | read | stored => cases hwaits

theorem of_asks {access : Access} (h : guard.Asks access) (haccess : stage.access? = some access)
    (hholds : stage.holds = false) : Fits initial value grants stage guard := by
  cases stage with
  | awaitingRead => cases haccess; cases h; exact .awaitingRead
  | awaitingSlot => cases haccess; cases h; exact .awaitingSlot
  | awaitingTurn ticket => cases haccess; cases h; exact .awaitingTurn
  | away => cases haccess
  | reading | writing ticket => cases hholds

/-- What a reader has seen is what the writers left that had been granted the lock when it was. -/
theorem seen_eq {since : Nat} {seen : List α} (h : Fits initial value grants stage (.reader since seen))
    {found : α} (hfound : found ∈ seen) : found = Guarded.updated initial (grants.take since) := by
  cases h with
  | awaitingRead => cases hfound
  | reading hseen => rw [List.take_length, hseen found hfound]

end Guard.Fits

/-! ### All threads -/

namespace Guarded

theorem updated_append (initial : α) (earlier : List (α → α)) (update : α → α) :
    updated initial (earlier ++ [update]) = update (updated initial earlier) := by
  simp [updated]

variable {capacity count : Nat} {guarded before after : Guarded α} {thread other : Nat}

theorem guardOf_setGuard_self (h : thread < guarded.guards.length) :
    (guarded.setGuard thread guard).guardOf thread = guard := by
  simp [guardOf, setGuard, h]

theorem guardOf_setGuard_of_ne (h : other ≠ thread) :
    (guarded.setGuard thread guard).guardOf other = guarded.guardOf other := by
  simp [guardOf, setGuard, List.getElem?_set_ne h.symm]

@[simp] theorem setGuard_crowd (guarded : Guarded α) (thread : Nat) (guard : Guard α) :
    (guarded.setGuard thread guard).crowd = guarded.crowd := rfl

@[simp] theorem setGuard_grants (guarded : Guarded α) (thread : Nat) (guard : Guard α) :
    (guarded.setGuard thread guard).grants = guarded.grants := rfl

/-- Every thread is about what it can be about, and the value is up to date unless somebody writes. -/
structure Consistent (capacity count : Nat) (initial : α) (guarded : Guarded α) : Prop where
  crowd : Crowd.Reachable capacity count guarded.crowd
  length_eq : guarded.guards.length = count
  fits : ∀ thread, (guarded.guardOf thread).Fits initial guarded.value guarded.grants
    (guarded.crowd.stageOf thread)
  value_eq : (∀ thread, (guarded.crowd.stageOf thread).writes = false) →
    guarded.value = updated initial guarded.grants

theorem Consistent.start {count : Nat} (initial : α) :
    Consistent capacity count initial (start capacity count initial) where
  crowd := .start
  length_eq := List.length_replicate
  fits thread := by
    have hguard : (Guarded.start capacity count initial).guardOf thread = .none := by
      simp only [guardOf, Guarded.start, List.getElem?_replicate]
      split <;> rfl
    have hstage : (Guarded.start capacity count initial).crowd.stageOf thread = .away := by
      simp only [Crowd.stageOf, Guarded.start, Crowd.ofSize, List.getElem?_replicate]
      split <;> rfl
    rw [hguard, hstage]
    exact .away
  value_eq _ := rfl

/-- The note that is taken of a thread that has been granted the lock. -/
def granted (guarded : Guarded α) (thread : Nat) : Guarded α :=
  match guarded.guardOf thread with
  | .reader _ seen => guarded.setGuard thread (.reader guarded.grants.length seen)
  | .writer update _ => { guarded with grants := guarded.grants ++ [update] }
  | .none => guarded

theorem lock_cases {action : Action} (h : guarded.lock action = some after) :
    ∃ crowd, guarded.crowd.act action = some crowd ∧
      if (guarded.crowd.stageOf action.thread).holds = false ∧
          (crowd.stageOf action.thread).holds = true then
        after = { guarded with crowd }.granted action.thread
      else after = { guarded with crowd } := by
  obtain ⟨crowd, hact, rfl⟩ := Option.map_eq_some_iff.1 h
  refine ⟨crowd, hact, ?_⟩
  simp only [Bool.not_eq_true]
  split
  · rfl
  · rfl

theorem Consistent.value_eq_of_others (h : Consistent capacity count initial guarded)
    (hold : (guarded.crowd.stageOf thread).holds = false)
    (hwrites : ∀ other, other ≠ thread → (guarded.crowd.stageOf other).writes = false) :
    guarded.value = updated initial guarded.grants := by
  refine h.value_eq fun other => ?_
  by_cases hother : other = thread
  · exact hother ▸ Stage.writes_eq_false_of_holds hold
  · exact hwrites other hother

theorem Consistent.setGuard (h : Consistent capacity count initial guarded)
    (hfits : guard.Fits initial guarded.value guarded.grants (guarded.crowd.stageOf thread))
    (hlt : thread < guarded.guards.length) :
    Consistent capacity count initial (guarded.setGuard thread guard) where
  crowd := h.crowd
  length_eq := List.length_set.trans h.length_eq
  fits other := by
    by_cases hother : other = thread
    · rw [hother, guardOf_setGuard_self hlt]
      exact hfits
    · rw [guardOf_setGuard_of_ne hother]
      exact h.fits other
  value_eq := h.value_eq

/-! ### Steps at the lock -/

theorem lt_of_guardOf_ne (h : guarded.guardOf thread ≠ .none) : thread < guarded.guards.length := by
  by_contra hge
  exact h (by simp [guardOf, Nat.not_lt.1 hge])

/-- A step at the lock changes the stage of its own thread. -/
theorem consistent_of_act {action : Action} (hword : capacity < UInt64.size)
    (hcrowd : Crowd.Reachable capacity count before.crowd)
    (hact : before.crowd.act action = some after.crowd) (hlength : after.guards.length = count)
    (hthread : (after.guardOf action.thread).Fits initial after.value after.grants
      (after.crowd.stageOf action.thread))
    (hothers : ∀ other, other ≠ action.thread →
      (after.guardOf other).Fits initial after.value after.grants (before.crowd.stageOf other))
    (hvalue : (after.crowd.stageOf action.thread).writes = false →
      (∀ other, other ≠ action.thread → (before.crowd.stageOf other).writes = false) →
      after.value = updated initial after.grants) : Consistent capacity count initial after := by
  have hstage (other : Nat) (hne : other ≠ action.thread) :
      after.crowd.stageOf other = before.crowd.stageOf other :=
    Crowd.stageOf_act_of_ne hword hcrowd hact hne
  refine ⟨hcrowd.step ⟨action, hact⟩, hlength, fun other => ?_, fun hnone => ?_⟩
  · by_cases hother : other = action.thread
    · exact hother ▸ hthread
    · rw [hstage other hother]
      exact hothers other hother
  · exact hvalue (hnone _) fun other hother => hstage other hother ▸ hnone other

/-- All is well but for a thread that is about to ask for this access, or waits for it. -/
structure Ready (capacity count : Nat) (initial : α) (guarded : Guarded α) (thread : Nat)
    (access : Access) : Prop where
  crowd : Crowd.Reachable capacity count guarded.crowd
  length_eq : guarded.guards.length = count
  others : ∀ other, other ≠ thread →
    (guarded.guardOf other).Fits initial guarded.value guarded.grants (guarded.crowd.stageOf other)
  value_eq : (∀ other, other ≠ thread → (guarded.crowd.stageOf other).writes = false) →
    guarded.value = updated initial guarded.grants
  asks : (guarded.guardOf thread).Asks access

section

variable {action : Action} (hword : capacity < UInt64.size)
include hword

theorem Ready.grant_read (h : Ready capacity count initial guarded action.thread .read) {crowd : Crowd}
    (hact : guarded.crowd.act action = some crowd) (hreading : crowd.stageOf action.thread = .reading) :
    Consistent capacity count initial ({ guarded with crowd }.granted action.thread) := by
  obtain ⟨since, hguard⟩ := h.asks.exists_read
  have hlt : action.thread < guarded.guards.length := lt_of_guardOf_ne (by simp [hguard])
  have hgranted : { guarded with crowd }.granted action.thread =
      { guarded.setGuard action.thread (.reader guarded.grants.length []) with crowd } := by
    simp only [granted, show { guarded with crowd }.guardOf action.thread = _ from hguard]
    rfl
  rw [hgranted]
  refine consistent_of_act hword h.crowd hact ?_ ?_ (fun other hother => ?_) fun _ => h.value_eq
  · exact List.length_set.trans h.length_eq
  · change Guard.Fits _ _ _ (crowd.stageOf action.thread)
      ((guarded.setGuard action.thread _).guardOf action.thread)
    rw [guardOf_setGuard_self hlt, hreading]
    exact .reading fun _ hmem => (List.not_mem_nil hmem).elim
  · change Guard.Fits _ _ _ _ ((guarded.setGuard action.thread _).guardOf other)
    rw [guardOf_setGuard_of_ne hother]
    exact h.others other hother

theorem Ready.grant_write (h : Ready capacity count initial guarded action.thread .write) {crowd : Crowd}
    (hact : guarded.crowd.act action = some crowd) {ticket : Ticket}
    (hwriting : crowd.stageOf action.thread = .writing ticket) :
    Consistent capacity count initial ({ guarded with crowd }.granted action.thread) := by
  obtain ⟨update, hguard⟩ := h.asks.exists_write
  have hgranted : { guarded with crowd }.granted action.thread =
      { guarded with crowd, grants := guarded.grants ++ [update] } := by
    simp only [granted, show { guarded with crowd }.guardOf action.thread = _ from hguard]
  -- nobody else holds the lock, so nobody minds that there is one more grant
  have hfree (other : Nat) (hother : other ≠ action.thread) :
      (guarded.crowd.stageOf other).holds = false := by
    refine Bool.eq_false_iff.2 fun hholds => hother ?_
    rw [← Crowd.stageOf_act_of_ne hword h.crowd hact hother] at hholds
    exact (Crowd.Reachable.alone hword (h.crowd.step ⟨action, hact⟩) (by rw [hwriting]; rfl)
      (by rw [hwriting]; rfl) hholds).symm
  rw [hgranted]
  refine consistent_of_act hword h.crowd hact h.length_eq ?_ (fun other hother => ?_) fun hwrites => ?_
  · change Guard.Fits _ _ _ (crowd.stageOf action.thread) (guarded.guardOf action.thread)
    rw [hwriting, hguard]
    exact .unread rfl (h.value_eq fun other hother => Stage.writes_eq_false_of_holds (hfree other hother))
  · exact (h.others other hother).of_holds_eq_false (hfree other hother) _ _
  · change (crowd.stageOf action.thread).writes = false at hwrites
    rw [hwriting] at hwrites
    cases hwrites

/-- A thread that asks for the lock or waits for it comes nearer to it. -/
theorem Ready.lock {access : Access} (h : Ready capacity count initial guarded thread access)
    (hthread : action.thread = thread) (hold : (guarded.crowd.stageOf thread).holds = false)
    (hnew : ∀ crowd, guarded.crowd.act action = some crowd →
      (crowd.stageOf thread).access? = some access)
    (hlock : guarded.lock action = some after) : Consistent capacity count initial after := by
  subst hthread
  obtain ⟨crowd, hact, hafter⟩ := lock_cases hlock
  have haccess := hnew crowd hact
  split at hafter
  · rename_i hgrant
    subst hafter
    cases access with
    | read => exact h.grant_read hword hact (Stage.reading_of_access? haccess hgrant.2)
    | write =>
      obtain ⟨ticket, hwriting⟩ := Stage.writing_of_access? haccess hgrant.2
      exact h.grant_write hword hact hwriting
  · rename_i hgrant
    subst hafter
    refine consistent_of_act hword h.crowd hact h.length_eq (.of_asks h.asks haccess ?_) h.others
      fun _ => h.value_eq
    simpa [hold] using hgrant

theorem Consistent.acquire {access : Access} (h : Consistent capacity count initial before)
    (hguard : guard.Asks access)
    (hlock : (before.setGuard thread guard).lock (.acquire thread access) = some after) :
    Consistent capacity count initial after := by
  have hwatchful := h.crowd.watchful hword
  obtain ⟨crowd, hact, -⟩ := lock_cases hlock
  have hold : before.crowd.stageOf thread = .away := (Crowd.act_leads hwatchful hact).1
  have hlt : thread < count := h.crowd.lt_of_act hword hact
  have hready : Ready capacity count initial (before.setGuard thread guard) thread access :=
    { crowd := h.crowd
      length_eq := List.length_set.trans h.length_eq
      others := fun other hother => by
        rw [guardOf_setGuard_of_ne hother]
        exact h.fits other
      value_eq := h.value_eq_of_others (by rw [hold]; rfl)
      asks := by rwa [guardOf_setGuard_self (h.length_eq ▸ hlt)] }
  have hnew (crowd : Crowd) (hact : before.crowd.act (.acquire thread access) = some crowd) :
      (crowd.stageOf thread).access? = some access :=
    (Crowd.act_leads hwatchful hact).2
  refine hready.lock hword rfl ?_ hnew hlock
  rw [setGuard_crowd, hold]
  rfl

theorem Consistent.retry (h : Consistent capacity count initial before)
    (hleads : ∀ old new, action.Leads old new → old.waits = true ∧ new.access? = old.access?)
    (hlock : before.lock action = some after) : Consistent capacity count initial after := by
  have hstep (crowd : Crowd) (hact : before.crowd.act action = some crowd) :=
    hleads _ _ (Crowd.act_leads (h.crowd.watchful hword) hact)
  obtain ⟨crowd, hact, -⟩ := lock_cases hlock
  have hwaits := (hstep crowd hact).1
  have hold := Stage.holds_eq_false_of_waits hwaits
  obtain ⟨access, haccess⟩ : ∃ access, (before.crowd.stageOf action.thread).access? = some access := by
    refine Option.ne_none_iff_exists'.1 fun hnone => ?_
    rw [Stage.access?_eq_none_iff.1 hnone] at hwaits
    cases hwaits
  have hready : Ready capacity count initial before action.thread access :=
    { crowd := h.crowd
      length_eq := h.length_eq
      others := fun other _ => h.fits other
      value_eq := h.value_eq_of_others hold
      asks := (h.fits action.thread).asks hwaits haccess }
  exact hready.lock hword rfl hold (fun crowd hact => (hstep crowd hact).2.trans haccess) hlock

theorem Consistent.release (h : Consistent capacity count initial before)
    (hstored : (before.crowd.stageOf thread).writes = true → before.value = updated initial before.grants)
    (hlock : (before.setGuard thread .none).lock (.release thread) = some after) :
    Consistent capacity count initial after := by
  obtain ⟨crowd, hact, hafter⟩ := lock_cases hlock
  have hlt : thread < count := h.crowd.lt_of_act hword hact
  obtain ⟨hholds, haway⟩ := Crowd.act_leads (h.crowd.watchful hword) hact
  rw [if_neg fun hgrant => by simp [hholds] at hgrant] at hafter
  subst hafter
  refine consistent_of_act hword h.crowd hact ?_ ?_ (fun other hother => ?_) fun _ hwrites => ?_
  · exact List.length_set.trans h.length_eq
  · change Guard.Fits _ _ _ (crowd.stageOf thread) ((before.setGuard thread .none).guardOf thread)
    rw [guardOf_setGuard_self (h.length_eq ▸ hlt), show crowd.stageOf thread = .away from haway]
    exact .away
  · have hne : other ≠ thread := hother
    change Guard.Fits _ _ _ _ ((before.setGuard thread .none).guardOf other)
    rw [guardOf_setGuard_of_ne hne]
    exact h.fits other
  · by_cases hwriting : (before.crowd.stageOf thread).writes = true
    · exact hstored hwriting
    · refine h.value_eq fun other => ?_
      by_cases hother : other = thread
      · exact hother ▸ Bool.eq_false_iff.2 hwriting
      · exact hwrites other hother

/-! ### Steps at the value -/

/-- Where a thread reads, nobody writes, and the value is up to date. -/
theorem Consistent.value_eq_of_reading (h : Consistent capacity count initial guarded)
    (hreading : guarded.crowd.stageOf thread = .reading) :
    guarded.value = updated initial guarded.grants := by
  refine h.value_eq fun other => Bool.eq_false_iff.2 fun hwrites => ?_
  obtain ⟨ticket, hwriting⟩ := Stage.writing_of_writes hwrites
  have hsame : other = thread :=
    h.crowd.alone hword (by rw [hwriting]; rfl) (by rw [hwriting]; rfl) (by rw [hreading]; rfl)
  rw [hsame, hreading] at hwriting
  cases hwriting

theorem Consistent.store (h : Consistent capacity count initial guarded) {ticket : Ticket}
    {update : α → α} (hwriting : guarded.crowd.stageOf thread = .writing ticket)
    (hguard : guarded.guardOf thread = .writer update (.read value)) :
    Consistent capacity count initial
      { guarded.setGuard thread (.writer update .stored) with value := update value } where
  crowd := h.crowd
  length_eq := List.length_set.trans h.length_eq
  fits other := by
    have hlt : thread < guarded.guards.length := lt_of_guardOf_ne (by simp [hguard])
    change Guard.Fits _ _ _ (guarded.crowd.stageOf other)
      ((guarded.setGuard thread (.writer update .stored)).guardOf other)
    by_cases hother : other = thread
    · subst hother
      have hfits := h.fits other
      rw [hwriting, hguard] at hfits
      rw [hwriting, guardOf_setGuard_self hlt]
      cases hfits with
      | read hgrants hvalue =>
        refine .stored ?_
        rw [setGuard_grants, hgrants, updated_append, ← hvalue]
    · rw [guardOf_setGuard_of_ne hother]
      refine (h.fits other).of_holds_eq_false (Bool.eq_false_iff.2 fun hholds => hother ?_) _ _
      exact (h.crowd.alone hword (by rw [hwriting]; rfl) (by rw [hwriting]; rfl) hholds).symm
  value_eq hnone := by
    have hidle : (guarded.crowd.stageOf thread).writes = false := hnone thread
    rw [hwriting] at hidle
    cases hidle

theorem Consistent.act {move : Move α} (h : Consistent capacity count initial before)
    (hact : before.act move = some after) : Consistent capacity count initial after := by
  cases move with
  | read thread => exact h.acquire hword .read hact
  | write thread update => exact h.acquire hword .write hact
  | resume thread => exact h.retry hword (fun _ _ => id) hact
  | rouse thread => exact h.retry hword (fun _ _ => id) hact
  | look thread =>
    simp only [Guarded.act] at hact
    split at hact
    · rename_i since seen hstage hguard
      cases hact
      have hvalue := h.value_eq_of_reading hword hstage
      have hfits := h.fits thread
      rw [hstage, hguard] at hfits
      refine h.setGuard ?_ (lt_of_guardOf_ne (by simp [hguard]))
      rw [hstage]
      cases hfits with
      | reading hseen =>
        refine .reading fun found hmem => ?_
        rcases List.mem_append.1 hmem with hold | hnew
        · exact hseen found hold
        · exact (List.mem_singleton.1 hnew).trans hvalue
    · cases hact
  | load thread =>
    simp only [Guarded.act] at hact
    split at hact
    · rename_i ticket update hstage hguard
      cases hact
      have hfits := h.fits thread
      rw [hstage, hguard] at hfits
      refine h.setGuard ?_ (lt_of_guardOf_ne (by simp [hguard]))
      rw [hstage]
      cases hfits with
      | unread hgrants hvalue => exact .read hgrants hvalue
    · cases hact
  | store thread =>
    simp only [Guarded.act] at hact
    split at hact
    · rename_i ticket update value hstage hguard
      cases hact
      exact h.store hword hstage hguard
    · cases hact
  | release thread =>
    simp only [Guarded.act] at hact
    split at hact
    · cases hact
    · cases hact
    · rename_i hunread hread
      refine h.release hword (fun hwrites => ?_) hact
      obtain ⟨ticket, hwriting⟩ := Stage.writing_of_writes hwrites
      have hfits := h.fits thread
      rw [hwriting] at hfits
      generalize before.guardOf thread = guard at hunread hread hfits
      cases hfits with
      | unread => exact absurd rfl (hunread _)
      | read => exact absurd rfl (hread _ _)
      | stored hvalue => exact hvalue

theorem Reachable.consistent (h : Reachable capacity count initial guarded) :
    Consistent capacity count initial guarded := by
  induction h with
  | start => exact .start initial
  | step _ hact ih => exact ih.act hword hact

/-- No update is lost, for any number of threads and in every order of their steps: whenever nobody writes,
the value is what the updates of the writers that have been granted the lock make of the initial one, in the
order of the grants. All that a reader has seen is what the writers made of it that had been granted the
lock before, and while it reads no other writer is. -/
theorem Reachable.no_lost_update (h : Reachable capacity count initial guarded) :
    ((∀ thread, (guarded.crowd.stageOf thread).writes = false) →
      guarded.value = updated initial guarded.grants) ∧
    ∀ thread since seen, guarded.guardOf thread = .reader since seen →
      (∀ found ∈ seen, found = updated initial (guarded.grants.take since)) ∧
      (guarded.crowd.stageOf thread = .reading → since = guarded.grants.length) := by
  have hconsistent := h.consistent hword
  refine ⟨hconsistent.value_eq, fun thread since seen hguard => ?_⟩
  have hfits := hconsistent.fits thread
  rw [hguard] at hfits
  refine ⟨fun found => hfits.seen_eq, fun hreading => ?_⟩
  rw [hreading] at hfits
  cases hfits
  rfl

end

theorem Reachable.of_moves (h : Reachable capacity count initial before) (moves : List (Move α))
    (hmoves : moves.foldlM act before = some after) : Reachable capacity count initial after := by
  induction moves generalizing before with
  | nil =>
    cases hmoves
    exact h
  | cons move moves ih =>
    obtain ⟨next, hnext, hrest⟩ := Option.bind_eq_some_iff.1 hmoves
    exact ih (h.step hnext) hrest

/-- A reader waits for one writer and looks again while the next one waits for it. -/
theorem Reachable.no_lost_update_contended :
    ∃ guarded, Reachable 2 3 5 guarded ∧ (guarded.crowd.stageOf 2).waits = true ∧
      guarded.guardOf 1 = .reader 1 [6, 6] ∧ guarded.value = updated 5 guarded.grants ∧
      ∀ found ∈ [6, 6], found = updated 5 (guarded.grants.take 1) := by
  have h : Reachable 2 3 5 _ :=
    Reachable.start.of_moves [.write 0 (· + 1), .load 0, .read 1, .store 0, .release 0, .resume 1,
      .look 1, .write 2 (· * 2), .look 1] rfl
  obtain ⟨hvalue, hseen⟩ := Reachable.no_lost_update (by decide) h
  refine ⟨_, h, rfl, rfl, hvalue fun thread => ?_, (hseen 1 1 [6, 6] rfl).1⟩
  match thread with
  | 0 | 1 | 2 => rfl
  | _ + 3 => rfl

end Guarded

end LineStore.Lock
