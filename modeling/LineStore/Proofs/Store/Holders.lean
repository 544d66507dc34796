import LineStore.Proofs.Store.Turns

/-!
Who has the lock of a shard, before a step and after it. A thread with write access has the shard to itself,
so that nobody else has the lock of a shard while its chain changes.
-/

namespace LineStore.Store.Contention

variable {capacity count : Nat} {contention after : Contention} {thread : Nat} {operation : Operation}
  {caller caller' : Caller} {shard shard' : Shard}

/-- A thread has the lock of a shard, for this operation. -/
structure Holds (contention : Contention) (thread i : Nat) (caller : Caller) (operation : Operation) :
    Prop where
  caller_eq : contention.callers[thread]? = some caller
  head_eq : caller.todo.head? = some operation
  place_eq : contention.place operation = i
  stage : (contention.stageAt i thread).holds = true

namespace Holds

variable {i : Nat}

theorem progress_ne_idle (h : contention.Holds thread i caller operation)
    (hlocked : contention.Locked capacity count) : caller.progress ≠ .idle := by
  intro hidle
  have haccess := hlocked.access thread caller h.caller_eq i
  have hstage := h.stage
  rw [wants, hidle, Lock.Stage.access?_eq_none_iff] at haccess
  rw [haccess] at hstage
  cases hstage

theorem access (h : contention.Holds thread i caller operation)
    (hlocked : contention.Locked capacity count) :
    (contention.stageAt i thread).access? = some operation.access := by
  rw [hlocked.access thread caller h.caller_eq i, ← h.place_eq]
  exact wants_self h.head_eq (h.progress_ne_idle hlocked)

/-- A thread with write access has the shard to itself. -/
theorem alone (hword : capacity < UInt64.size) (hlocked : contention.Locked capacity count)
    (h : contention.Holds thread i caller operation) (hwrite : operation.access = .write)
    {other : Nat} {caller' : Caller} {operation' : Operation}
    (hother : contention.Holds other i caller' operation') : thread = other := by
  have haccess := h.access hlocked
  have hthread := h.stage
  have hothers := hother.stage
  rw [hwrite] at haccess
  rw [stageAt] at haccess hthread hothers
  cases hshard : contention.shards[i]? with
  | none =>
    rw [hshard] at hthread
    cases hthread
  | some shard =>
    rw [hshard] at haccess hthread hothers
    exact (hlocked.crowds i shard hshard).alone hword haccess hthread hothers

end Holds

/-- Other threads have the locks that they had. -/
theorem Turn.holds_iff (hturn : Turn contention after thread operation caller caller' shard shard')
    {other i : Nat} (hne : other ≠ thread) {caller'' : Caller} {next : Operation} :
    after.Holds other i caller'' next ↔ contention.Holds other i caller'' next := by
  constructor
  · rintro ⟨hcaller, hhead, hplace, hstage⟩
    rw [hturn.callers_of_ne hne] at hcaller
    rw [hturn.place_eq] at hplace
    rw [hturn.stageAt_of_ne hne] at hstage
    exact ⟨hcaller, hhead, hplace, hstage⟩
  · rintro ⟨hcaller, hhead, hplace, hstage⟩
    rw [← hturn.callers_of_ne hne] at hcaller
    rw [← hturn.place_eq] at hplace
    rw [← hturn.stageAt_of_ne hne] at hstage
    exact ⟨hcaller, hhead, hplace, hstage⟩

/-! ### The thread whose turn it is -/

namespace Turn

variable {i : Nat} {caller'' : Caller} {next : Operation}
  (hturn : Turn contention after thread operation caller caller' shard shard')
include hturn

theorem holds_before (h : (shard.crowd.stageOf thread).holds = true) :
    contention.Holds thread (contention.place operation) caller operation :=
  ⟨hturn.caller_eq, hturn.head_eq, rfl, hturn.stageAt_before ▸ h⟩

theorem holds_after (htodo : caller'.todo = caller.todo)
    (h : (shard'.crowd.stageOf thread).holds = true) :
    after.Holds thread (contention.place operation) caller' operation :=
  ⟨hturn.callers_self, htodo ▸ hturn.head_eq, hturn.place_eq operation, hturn.stageAt_after ▸ h⟩

theorem eq_of_holds_before (h : contention.Holds thread i caller'' next) :
    i = contention.place operation ∧ caller'' = caller ∧ next = operation ∧
      (shard.crowd.stageOf thread).holds = true := by
  obtain ⟨hcaller, hhead, hplace, hstage⟩ := h
  cases hcaller.symm.trans hturn.caller_eq
  cases hhead.symm.trans hturn.head_eq
  rw [← hplace, hturn.stageAt_before] at hstage
  exact ⟨hplace.symm, rfl, rfl, hstage⟩

theorem eq_of_holds_after (htodo : caller'.todo = caller.todo)
    (h : after.Holds thread i caller'' next) :
    i = contention.place operation ∧ caller'' = caller' ∧ next = operation ∧
      (shard'.crowd.stageOf thread).holds = true := by
  obtain ⟨hcaller, hhead, hplace, hstage⟩ := h
  cases hcaller.symm.trans hturn.callers_self
  rw [htodo] at hhead
  cases hhead.symm.trans hturn.head_eq
  rw [hturn.place_eq] at hplace
  rw [← hplace, hturn.stageAt_after] at hstage
  exact ⟨hplace.symm, rfl, rfl, hstage⟩

end Turn

/-- While another thread has the lock of the shard, its chain stays as it is. -/
theorem Deed.chain_eq (hword : capacity < UInt64.size) (hlocked : contention.Locked capacity count)
    (hturn : Turn contention after thread operation caller caller' shard shard')
    (hdeed : Deed contention after thread operation caller shard caller' shard') {other : Nat}
    (hne : other ≠ thread) {caller'' : Caller} {next : Operation}
    (hother : contention.Holds other (contention.place operation) caller'' next) :
    shard'.chain = shard.chain := by
  have hheld := hlocked.held_of_turn hturn hdeed
  cases hdeed with
  | wait | grant | look | leave => rfl
  | change hprogress =>
    have hholds := hturn.holds_before (hheld Progress.noConfusion Progress.noConfusion).2
    cases haccess : operation.access with
    | write => exact absurd (hholds.alone hword hlocked haccess hother).symm hne
    | read =>
      cases operation with
      | search key => rfl
      | insert key value | update key value | delete key => cases haccess

end LineStore.Store.Contention
