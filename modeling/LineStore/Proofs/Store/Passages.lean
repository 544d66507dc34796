import LineStore.Proofs.Store.Holders

/-!
What a step means for an operation. From the moment at which it is granted its lock, an operation has one
answer and makes one thing of its bucket. Looking and changing bring this about and do not alter it.
-/

namespace LineStore.Store

/-- What an operation that has its lock answers in the end, and what it makes of its bucket: what it has
done, or what it would do at once. -/
def Caller.due (caller : Caller) (operation : Operation) (chain : Chain) : Outcome × Chain :=
  match caller.progress with
  | .acted outcome => (outcome, chain)
  | _ => chain.perform operation

theorem Caller.due_of_read {caller : Caller} {operation : Operation} (h : operation.access = .read)
    (chain : Chain) : (caller.due operation chain).2 = chain := by
  rw [due]
  split
  · rfl
  · rw [Chain.perform_of_read h]

namespace Contention

/-- A step as far as the operation of its thread is concerned. -/
inductive Passage (before after : Contention) (thread : Nat) (operation : Operation)
    (caller caller' : Caller) (chain chain' : Chain) : Prop where
  | outside (hbefore : ∀ i caller operation, ¬ before.Holds thread i caller operation)
      (hafter : ∀ i caller operation, ¬ after.Holds thread i caller operation)
      (hchain : chain' = chain) (htodo : caller'.todo = caller.todo)
      (houtcomes : caller'.outcomes = caller.outcomes) (hgrants : after.grants = before.grants)
  | granted (hbefore : ∀ i caller operation, ¬ before.Holds thread i caller operation)
      (hafter : after.Holds thread (before.place operation) caller' operation)
      (hprogress : caller'.progress = .entered) (hchain : chain' = chain)
      (htodo : caller'.todo = caller.todo) (houtcomes : caller'.outcomes = caller.outcomes)
      (hgrants : after.grants = before.grants ++ [(thread, operation)])
  | working (hbefore : before.Holds thread (before.place operation) caller operation)
      (hafter : after.Holds thread (before.place operation) caller' operation)
      (hdue : caller'.due operation chain' = caller.due operation chain)
      (hseen : ∀ found?, caller'.progress = .looked found? → found? = chain'.find? operation.key)
      (htodo : caller'.todo = caller.todo) (houtcomes : caller'.outcomes = caller.outcomes)
      (hgrants : after.grants = before.grants)
  | done {outcome : Outcome} (hbefore : before.Holds thread (before.place operation) caller operation)
      (hafter : ∀ i caller operation, ¬ after.Holds thread i caller operation)
      (hdue : caller.due operation chain = (outcome, chain)) (hchain : chain' = chain)
      (htodo : caller'.todo = caller.todo.tail)
      (houtcomes : caller'.outcomes = caller.outcomes ++ [outcome])
      (hgrants : after.grants = before.grants)

variable {capacity count : Nat} {contention after : Contention} {thread : Nat} {operation : Operation}
  {caller caller' : Caller} {shard shard' : Shard}

/-- Every deed is a passage, if what the thread saw in the chain is still there. -/
theorem Deed.passage (hlocked : contention.Locked capacity count) (hafter : after.Locked capacity count)
    (hturn : Turn contention after thread operation caller caller' shard shard')
    (hdeed : Deed contention after thread operation caller shard caller' shard')
    (hseen : ∀ found?, caller.progress = .looked found? →
      found? = shard.chain.find? operation.key) :
    Passage contention after thread operation caller caller' shard.chain shard'.chain := by
  have hheld := hlocked.held_of_turn hturn hdeed
  cases hdeed with
  | wait _ hfree hstill _ hgrants =>
    refine .outside (fun i other next hholds => ?_) (fun i other next hholds => ?_) rfl rfl rfl hgrants
    · exact absurd (hturn.eq_of_holds_before hholds).2.2.2 (Bool.eq_false_iff.1 hfree)
    · exact absurd (hturn.eq_of_holds_after rfl hholds).2.2.2 (Bool.eq_false_iff.1 hstill)
  | grant _ hfree hgot _ hgrants =>
    refine .granted (fun i other next hholds => ?_) (hturn.holds_after rfl hgot) rfl rfl rfl rfl hgrants
    exact absurd (hturn.eq_of_holds_before hholds).2.2.2 (Bool.eq_false_iff.1 hfree)
  | look hprogress hholds hgrants =>
    refine .working (hturn.holds_before hholds) (hturn.holds_after rfl hholds) ?_ ?_ rfl rfl hgrants
    · simp only [Caller.due, hprogress]
    · rintro found? hfound
      exact (Progress.looked.inj hfound).symm
  | change hprogress hgrants =>
    have hholds := (hheld Progress.noConfusion Progress.noConfusion).2
    refine .working (hturn.holds_before hholds) (hturn.holds_after rfl hholds) ?_ ?_ rfl rfl hgrants
    · simp only [Caller.due, hprogress, hseen _ hprogress]
      rfl
    · rintro found? hfound
      cases hfound
  | @leave outcome crowd hprogress haway hgrants =>
    have hholds := hlocked.held_self hturn (by simp [hprogress])
    have hdue : caller.due operation shard.chain = (outcome, shard.chain) := by
      simp only [Caller.due, hprogress]
    refine .done (hturn.holds_before hholds) (fun i other next hother => ?_) hdue rfl rfl rfl hgrants
    cases hother.caller_eq.symm.trans hturn.callers_self
    exact hother.progress_ne_idle hafter rfl

end Contention

end LineStore.Store
