import LineStore.Proofs.Lock.Access
import LineStore.Proofs.Store.Bucketwise
import Mathlib.Data.Option.Basic

/-!
What the steps of threads that share a store come to.

A step changes one thread and the shard of its operation, and in that shard the stage of this thread alone.
There are five kinds of them. How far a thread is and how it stands with every lock agree in every state.
-/

namespace LineStore.Store.Contention

/-- The stage of a thread at the lock of a shard. -/
def stageAt (contention : Contention) (i thread : Nat) : Lock.Stage :=
  (contention.shards[i]?.map fun shard => shard.crowd.stageOf thread).getD .away

/-- A step of a thread that is about an operation changes the thread and the shard of the operation. -/
structure Turn (before after : Contention) (thread : Nat) (operation : Operation)
    (caller caller' : Caller) (shard shard' : Shard) : Prop where
  caller_eq : before.callers[thread]? = some caller
  head_eq : caller.todo.head? = some operation
  shard_eq : before.shards[before.place operation]? = some shard
  callers : after.callers = before.callers.set thread caller'
  shards : after.shards = before.shards.set (before.place operation) shard'
  others : ∀ other, other ≠ thread → shard'.crowd.stageOf other = shard.crowd.stageOf other

/-- What a thread does in a step, and what it and the shard of its operation are then. -/
inductive Deed (before after : Contention) (thread : Nat) (operation : Operation) (caller : Caller)
    (shard : Shard) : Caller → Shard → Prop where
  | wait {crowd : Lock.Crowd} (hprogress : caller.progress = .idle ∨ caller.progress = .entered)
      (hbefore : (shard.crowd.stageOf thread).holds = false)
      (hafter : (crowd.stageOf thread).holds = false)
      (haccess : (crowd.stageOf thread).access? = some operation.access)
      (hgrants : after.grants = before.grants) :
      Deed before after thread operation caller shard
        { caller with progress := .entered } { shard with crowd }
  | grant {crowd : Lock.Crowd} (hprogress : caller.progress = .idle ∨ caller.progress = .entered)
      (hbefore : (shard.crowd.stageOf thread).holds = false)
      (hafter : (crowd.stageOf thread).holds = true)
      (haccess : (crowd.stageOf thread).access? = some operation.access)
      (hgrants : after.grants = before.grants ++ [(thread, operation)]) :
      Deed before after thread operation caller shard
        { caller with progress := .entered } { shard with crowd }
  | look (hprogress : caller.progress = .entered)
      (hholds : (shard.crowd.stageOf thread).holds = true) (hgrants : after.grants = before.grants) :
      Deed before after thread operation caller shard
        { caller with progress := .looked (shard.chain.find? operation.key) } shard
  | change {found? : Option String} (hprogress : caller.progress = .looked found?)
      (hgrants : after.grants = before.grants) :
      Deed before after thread operation caller shard
        { caller with progress := .acted (shard.chain.apply found? operation).1 }
        { shard with chain := (shard.chain.apply found? operation).2 }
  | leave {outcome : Outcome} {crowd : Lock.Crowd} (hprogress : caller.progress = .acted outcome)
      (hafter : crowd.stageOf thread = .away) (hgrants : after.grants = before.grants) :
      Deed before after thread operation caller shard
        { todo := caller.todo.tail, outcomes := caller.outcomes ++ [outcome] } { shard with crowd }

/-! ### What a turn leaves alone -/

namespace Turn

variable {before after : Contention} {thread other i : Nat} {operation : Operation}
  {caller caller' : Caller} {shard shard' : Shard}
  (h : Turn before after thread operation caller caller' shard shard')
include h

theorem place_eq (other : Operation) : after.place other = before.place other := by
  rw [place, place, h.shards, List.length_set]

theorem callers_self : after.callers[thread]? = some caller' := by
  rw [h.callers]
  exact List.getElem?_set_self (List.getElem?_eq_some_iff.1 h.caller_eq).1

theorem callers_of_ne (hne : other ≠ thread) : after.callers[other]? = before.callers[other]? := by
  rw [h.callers]
  exact List.getElem?_set_ne hne.symm

theorem shards_self : after.shards[before.place operation]? = some shard' := by
  rw [h.shards]
  exact List.getElem?_set_self (List.getElem?_eq_some_iff.1 h.shard_eq).1

theorem shards_of_ne (hne : i ≠ before.place operation) : after.shards[i]? = before.shards[i]? := by
  rw [h.shards]
  exact List.getElem?_set_ne hne.symm

theorem stageAt_before : before.stageAt (before.place operation) thread = shard.crowd.stageOf thread := by
  rw [stageAt, h.shard_eq]
  rfl

theorem stageAt_after : after.stageAt (before.place operation) thread = shard'.crowd.stageOf thread := by
  rw [stageAt, h.shards_self]
  rfl

theorem stageAt_of_place_ne (hne : i ≠ before.place operation) (other : Nat) :
    after.stageAt i other = before.stageAt i other := by
  rw [stageAt, stageAt, h.shards_of_ne hne]

theorem stageAt_of_ne (hne : other ≠ thread) (i : Nat) :
    after.stageAt i other = before.stageAt i other := by
  by_cases hi : i = before.place operation
  · rw [stageAt, stageAt, hi, h.shards_self, h.shard_eq]
    exact h.others other hne
  · exact h.stageAt_of_place_ne hi other

end Turn

/-! ### Threads and locks -/

/-- The access that a thread wants at the lock of a shard. -/
def wants (contention : Contention) (caller : Caller) (i : Nat) : Option Lock.Access :=
  match caller.progress with
  | .idle => none
  | _ => (caller.todo.head?.filter fun operation => contention.place operation = i).map Operation.access

section

variable {contention : Contention} {caller : Caller} {operation : Operation}
  (hhead : caller.todo.head? = some operation)
include hhead

theorem wants_of_ne {i : Nat} (hne : i ≠ contention.place operation) :
    contention.wants caller i = none := by
  rw [wants, hhead]
  split
  · rfl
  · simp [Option.filter, hne.symm]

theorem wants_self (hprogress : caller.progress ≠ .idle) :
    contention.wants caller (contention.place operation) = some operation.access := by
  rw [wants, hhead]
  split
  · contradiction
  · simp [Option.filter]

end

/-- Every lock is in a state that it can come to, and every thread stands with it as it has to: it waits
for the lock of its operation or has it, and has it once it has looked. -/
structure Locked (capacity count : Nat) (contention : Contention) : Prop where
  crowds : ∀ (i : Nat) (shard : Shard), contention.shards[i]? = some shard →
    shard.crowd.Reachable capacity count
  access : ∀ (thread : Nat) (caller : Caller), contention.callers[thread]? = some caller →
    ∀ i, (contention.stageAt i thread).access? = contention.wants caller i
  held : ∀ (thread : Nat) (caller : Caller) (operation : Operation),
    contention.callers[thread]? = some caller → caller.todo.head? = some operation →
    caller.progress ≠ .idle → caller.progress ≠ .entered →
    (contention.stageAt (contention.place operation) thread).holds = true

variable {capacity count : Nat} {contention after : Contention} {thread : Nat} {operation : Operation}
  {caller caller' : Caller} {shard shard' : Shard}

theorem current?_eq_some_iff :
    contention.current? thread = some (caller, operation, shard) ↔
      contention.callers[thread]? = some caller ∧ caller.todo.head? = some operation ∧
        contention.shards[contention.place operation]? = some shard := by
  simp only [current?, Option.bind_eq_bind, Option.bind_eq_some_iff, Option.pure_def, Option.some.injEq,
    Prod.mk.injEq]
  constructor
  · rintro ⟨caller, hcaller, operation, hhead, shard, hshard, rfl, rfl, rfl⟩
    exact ⟨hcaller, hhead, hshard⟩
  · rintro ⟨hcaller, hhead, hshard⟩
    exact ⟨caller, hcaller, operation, hhead, shard, hshard, rfl, rfl, rfl⟩

/-! ### Steps -/

theorem lock_cases {action : Lock.Action} (h : contention.lock thread action = some after) :
    ∃ caller operation shard crowd,
      contention.current? thread = some (caller, operation, shard) ∧
      shard.crowd.act action = some crowd ∧
      after.callers = contention.callers.set thread { caller with progress := .entered } ∧
      after.shards = contention.shards.set (contention.place operation) { shard with crowd } ∧
      after.grants = contention.grants ++
        if ¬ (shard.crowd.stageOf thread).holds ∧ (crowd.stageOf thread).holds then
          [(thread, operation)] else [] := by
  rw [lock, Option.bind_eq_bind, Option.bind_eq_some_iff] at h
  obtain ⟨⟨caller, operation, shard⟩, hcurrent, h⟩ := h
  rw [Option.bind_eq_bind, Option.bind_eq_some_iff] at h
  obtain ⟨crowd, hcrowd, h⟩ := h
  cases h
  exact ⟨caller, operation, shard, crowd, hcurrent, hcrowd, rfl, rfl, rfl⟩

theorem Locked.wants_eq (h : contention.Locked capacity count)
    (hcaller : contention.callers[thread]? = some caller)
    (hshard : contention.shards[contention.place operation]? = some shard) :
    (shard.crowd.stageOf thread).access? = contention.wants caller (contention.place operation) := by
  rw [← h.access thread caller hcaller, stageAt, hshard]
  rfl

/-- A thread that goes for a lock has not got it, and it goes for the access that its operation needs. -/
theorem Locked.approach (hword : capacity < UInt64.size) (h : contention.Locked capacity count)
    (hcurrent : contention.current? thread = some (caller, operation, shard)) {action : Lock.Action}
    {crowd : Lock.Crowd} (hcrowd : shard.crowd.act action = some crowd)
    (haction : action = .acquire thread operation.access ∧ caller.progress = .idle ∨
      action = .resume thread ∨ action = .rouse thread) :
    action.thread = thread ∧ (caller.progress = .idle ∨ caller.progress = .entered) ∧
      (shard.crowd.stageOf thread).holds = false ∧
      (crowd.stageOf thread).access? = some operation.access := by
  obtain ⟨hcaller, hhead, hshard⟩ := current?_eq_some_iff.1 hcurrent
  have hwants := h.wants_eq hcaller hshard
  have hleads := Lock.Crowd.act_leads ((h.crowds _ shard hshard).watchful hword) hcrowd
  have hagain : (shard.crowd.stageOf thread).waits = true →
      (crowd.stageOf thread).access? = (shard.crowd.stageOf thread).access? →
      (caller.progress = .idle ∨ caller.progress = .entered) ∧
        (shard.crowd.stageOf thread).holds = false ∧
        (crowd.stageOf thread).access? = some operation.access := by
    intro hwaits hsame
    have hfree := Lock.Stage.holds_eq_false_of_waits hwaits
    have hbusy : caller.progress ≠ .idle := by
      intro hidle
      rw [wants, hidle, Lock.Stage.access?_eq_none_iff] at hwants
      rw [hwants] at hwaits
      cases hwaits
    refine ⟨.inr ?_, hfree, ?_⟩
    · by_contra hentered
      have hholds := h.held thread caller operation hcaller hhead hbusy hentered
      rw [stageAt, hshard] at hholds
      cases hfree.symm.trans hholds
    · rw [hsame, hwants, wants_self hhead hbusy]
  rcases haction with ⟨rfl, hidle⟩ | rfl | rfl
  · obtain ⟨haway, haccess⟩ := hleads
    refine ⟨rfl, .inl hidle, ?_, haccess⟩
    exact (congrArg Lock.Stage.holds haway).trans rfl
  · exact ⟨rfl, hagain hleads.1 hleads.2⟩
  · exact ⟨rfl, hagain hleads.1 hleads.2⟩

theorem Locked.turn_of_lock (hword : capacity < UInt64.size) (h : contention.Locked capacity count)
    {action : Lock.Action} (hlock : contention.lock thread action = some after)
    (haction : ∀ caller operation shard, contention.current? thread = some (caller, operation, shard) →
      action = .acquire thread operation.access ∧ caller.progress = .idle ∨
        action = .resume thread ∨ action = .rouse thread) :
    ∃ operation caller caller' shard shard',
      Turn contention after thread operation caller caller' shard shard' ∧
      Deed contention after thread operation caller shard caller' shard' ∧
      shard'.crowd.Reachable capacity count := by
  obtain ⟨caller, operation, shard, crowd, hcurrent, hcrowd, hcallers, hshards, hgrants⟩ :=
    lock_cases hlock
  obtain ⟨hcaller, hhead, hshard⟩ := current?_eq_some_iff.1 hcurrent
  obtain ⟨hthread, hprogress, hfree, haccess⟩ :=
    h.approach hword hcurrent hcrowd (haction _ _ _ hcurrent)
  have hreach := h.crowds _ shard hshard
  have hothers : ∀ other, other ≠ thread → crowd.stageOf other = shard.crowd.stageOf other :=
    fun other hne => Lock.Crowd.stageOf_act_of_ne hword hreach hcrowd (hthread.symm ▸ hne)
  refine ⟨operation, caller, _, shard, _, ⟨hcaller, hhead, hshard, hcallers, hshards, hothers⟩, ?_,
    hreach.step ⟨action, hcrowd⟩⟩
  cases hafter : (crowd.stageOf thread).holds with
  | false => exact .wait hprogress hfree hafter haccess (by simpa [hafter] using hgrants)
  | true => exact .grant hprogress hfree hafter haccess (by simpa [hfree, hafter] using hgrants)

/-- Every step is a turn of one thread, and one of the five deeds. -/
theorem Locked.turn (hword : capacity < UInt64.size) (h : contention.Locked capacity count)
    {move : Move} (hact : contention.act move = some after) :
    ∃ thread operation caller caller' shard shard',
      Turn contention after thread operation caller caller' shard shard' ∧
      Deed contention after thread operation caller shard caller' shard' ∧
      shard'.crowd.Reachable capacity count := by
  cases move with
  | enter thread =>
    simp only [act, Option.bind_eq_bind, Option.bind_eq_some_iff] at hact
    obtain ⟨⟨caller, operation, shard⟩, hcurrent, _, hidle, hlock⟩ := hact
    refine ⟨thread, h.turn_of_lock hword hlock fun caller' operation' shard' hcurrent' => ?_⟩
    cases hcurrent.symm.trans hcurrent'
    exact .inl ⟨rfl, (Option.guard_eq_some' _).1 hidle⟩
  | resume thread => exact ⟨thread, h.turn_of_lock hword hact fun _ _ _ _ => .inr (.inl rfl)⟩
  | rouse thread => exact ⟨thread, h.turn_of_lock hword hact fun _ _ _ _ => .inr (.inr rfl)⟩
  | look thread =>
    simp only [act, Option.bind_eq_bind, Option.bind_eq_some_iff] at hact
    obtain ⟨⟨caller, operation, shard⟩, hcurrent, _, hguard, hafter⟩ := hact
    obtain ⟨hcaller, hhead, hshard⟩ := current?_eq_some_iff.1 hcurrent
    have hready := (Option.guard_eq_some' _).1 hguard
    cases hafter
    exact ⟨thread, operation, caller, _, shard, shard,
      ⟨hcaller, hhead, hshard, rfl, rfl, fun _ _ => rfl⟩, .look hready.1 hready.2 rfl,
      h.crowds _ shard hshard⟩
  | change thread =>
    simp only [act, Option.bind_eq_bind, Option.bind_eq_some_iff] at hact
    obtain ⟨⟨caller, operation, shard⟩, hcurrent, hafter⟩ := hact
    obtain ⟨hcaller, hhead, hshard⟩ := current?_eq_some_iff.1 hcurrent
    simp only at hafter
    split at hafter
    · rename_i found? hprogress
      cases hafter
      exact ⟨thread, operation, caller, _, shard, _,
        ⟨hcaller, hhead, hshard, rfl, rfl, fun _ _ => rfl⟩, .change hprogress rfl,
        h.crowds _ shard hshard⟩
    · cases hafter
  | leave thread =>
    simp only [act, Option.bind_eq_bind, Option.bind_eq_some_iff] at hact
    obtain ⟨⟨caller, operation, shard⟩, hcurrent, hafter⟩ := hact
    obtain ⟨hcaller, hhead, hshard⟩ := current?_eq_some_iff.1 hcurrent
    simp only at hafter
    split at hafter
    · rename_i outcome hprogress
      obtain ⟨crowd, hcrowd, hafter⟩ := Option.bind_eq_some_iff.1 hafter
      cases hafter
      have hreach := h.crowds _ shard hshard
      exact ⟨thread, operation, caller, _, shard, _,
        ⟨hcaller, hhead, hshard, rfl, rfl, fun other hne =>
          Lock.Crowd.stageOf_act_of_ne hword hreach hcrowd hne⟩,
        .leave hprogress (Lock.Crowd.act_leads (hreach.watchful hword) hcrowd).2 rfl,
        hreach.step ⟨_, hcrowd⟩⟩
    · cases hafter

theorem locked_start (buckets capacity : Nat) (todos : List (List Operation)) :
    (start buckets capacity todos).Locked capacity todos.length := by
  have hidle : ∀ (thread : Nat) (caller : Caller),
      (start buckets capacity todos).callers[thread]? = some caller → caller.progress = .idle := by
    intro thread caller hcaller
    rw [start, List.getElem?_map] at hcaller
    obtain ⟨todo, -, rfl⟩ := Option.map_eq_some_iff.1 hcaller
    rfl
  have hshard : ∀ (i : Nat) (shard : Shard), (start buckets capacity todos).shards[i]? = some shard →
      shard = { crowd := .ofSize capacity todos.length } := fun i shard hi =>
    List.eq_of_mem_replicate (List.mem_of_getElem? hi)
  have haway : ∀ i thread, (start buckets capacity todos).stageAt i thread = .away := by
    intro i thread
    rw [stageAt]
    cases hi : (start buckets capacity todos).shards[i]? with
    | none => rfl
    | some shard =>
      rw [hshard i shard hi, Option.map_some, Option.getD_some, Lock.Crowd.stageOf, Lock.Crowd.ofSize,
        List.getElem?_replicate]
      split <;> rfl
  constructor
  · intro i shard hi
    rw [hshard i shard hi]
    exact .start
  · intro thread caller hcaller i
    rw [haway, wants, hidle thread caller hcaller]
    rfl
  · intro thread caller operation hcaller _ hbusy
    exact absurd (hidle thread caller hcaller) hbusy

/-- A deed leaves its thread at the lock of its shard as it has to be there. -/
theorem Deed.standing (hdeed : Deed contention after thread operation caller shard caller' shard')
    (hhead : caller.todo.head? = some operation)
    (haccess : (shard.crowd.stageOf thread).access? =
      contention.wants caller (contention.place operation)) :
    caller'.progress = .idle ∧ shard'.crowd.stageOf thread = .away ∨
      caller'.progress ≠ .idle ∧ caller'.todo = caller.todo ∧
        (shard'.crowd.stageOf thread).access? = some operation.access := by
  have hsame : caller.progress ≠ .idle →
      (shard.crowd.stageOf thread).access? = some operation.access := fun hbusy =>
    haccess.trans (wants_self hhead hbusy)
  cases hdeed with
  | wait _ _ _ hstage | grant _ _ _ hstage => exact .inr ⟨Progress.noConfusion, rfl, hstage⟩
  | look hprogress => exact .inr ⟨Progress.noConfusion, rfl, hsame (by rw [hprogress]; simp)⟩
  | change hprogress => exact .inr ⟨Progress.noConfusion, rfl, hsame (by rw [hprogress]; simp)⟩
  | leave _ hafter => exact .inl ⟨rfl, hafter⟩

theorem Locked.access_of_turn (h : contention.Locked capacity count)
    (hturn : Turn contention after thread operation caller caller' shard shard')
    (hdeed : Deed contention after thread operation caller shard caller' shard') (i : Nat) :
    (after.stageAt i thread).access? = after.wants caller' i := by
  have hstanding := hdeed.standing hturn.head_eq (h.wants_eq hturn.caller_eq hturn.shard_eq)
  have hwants : after.wants caller' i = contention.wants caller' i := by
    simp only [wants, hturn.place_eq]
  rw [hwants]
  by_cases hi : i = contention.place operation
  · rw [hi, hturn.stageAt_after]
    rcases hstanding with ⟨hidle, haway⟩ | ⟨hbusy, htodo, hstage⟩
    · rw [haway, wants, hidle]
      rfl
    · rw [hstage, wants_self (htodo ▸ hturn.head_eq) hbusy]
  · rw [hturn.stageAt_of_place_ne hi, h.access thread caller hturn.caller_eq,
      wants_of_ne hturn.head_eq hi]
    rcases hstanding with ⟨hidle, -⟩ | ⟨-, htodo, -⟩
    · rw [wants, hidle]
    · rw [wants_of_ne (htodo ▸ hturn.head_eq) hi]

theorem Locked.held_self (h : contention.Locked capacity count)
    (hturn : Turn contention after thread operation caller caller' shard shard')
    (hprogress : caller.progress ≠ .idle ∧ caller.progress ≠ .entered) :
    (shard.crowd.stageOf thread).holds = true := by
  rw [← hturn.stageAt_before]
  exact h.held thread caller operation hturn.caller_eq hturn.head_eq hprogress.1 hprogress.2

theorem Locked.held_of_turn (h : contention.Locked capacity count)
    (hturn : Turn contention after thread operation caller caller' shard shard')
    (hdeed : Deed contention after thread operation caller shard caller' shard')
    (hbusy : caller'.progress ≠ .idle) (hentered : caller'.progress ≠ .entered) :
    caller'.todo = caller.todo ∧ (shard'.crowd.stageOf thread).holds = true := by
  cases hdeed with
  | wait | grant => exact absurd rfl hentered
  | look _ hholds => exact ⟨rfl, hholds⟩
  | change hprogress =>
    have hholds := h.held_self hturn (by simp [hprogress])
    exact ⟨rfl, hholds⟩
  | leave => exact absurd rfl hbusy

theorem Locked.of_turn (h : contention.Locked capacity count)
    (hturn : Turn contention after thread operation caller caller' shard shard')
    (hdeed : Deed contention after thread operation caller shard caller' shard')
    (hcrowd : shard'.crowd.Reachable capacity count) : after.Locked capacity count := by
  constructor
  · intro i other hi
    by_cases hplace : i = contention.place operation
    · rw [hplace, hturn.shards_self] at hi
      cases hi
      exact hcrowd
    · rw [hturn.shards_of_ne hplace] at hi
      exact h.crowds i other hi
  -- for every thread, how it stands with all locks: its own turn, or the turn of another
  · intro number other hother i
    by_cases hnumber : number = thread
    · rw [hnumber, hturn.callers_self] at hother
      cases hother
      rw [hnumber]
      exact h.access_of_turn hturn hdeed i
    · rw [hturn.callers_of_ne hnumber] at hother
      rw [hturn.stageAt_of_ne hnumber, h.access number other hother]
      simp only [wants, hturn.place_eq]
  · intro number other next hother hhead hbusy hentered
    rw [hturn.place_eq]
    by_cases hnumber : number = thread
    · rw [hnumber, hturn.callers_self] at hother
      cases hother
      obtain ⟨htodo, hholds⟩ := h.held_of_turn hturn hdeed hbusy hentered
      rw [htodo, hturn.head_eq] at hhead
      cases hhead
      rw [hnumber, hturn.stageAt_after]
      exact hholds
    · rw [hturn.callers_of_ne hnumber] at hother
      rw [hturn.stageAt_of_ne hnumber]
      exact h.held number other next hother hhead hbusy hentered

end LineStore.Store.Contention
