import LineStore.Proofs.Store.Passages
import LineStore.Proofs.Store.Runs

/-!
Threads that share a store get the answers that one operation after another would get, in the order in which
they were granted their locks.

At its grant an operation takes effect at once in a store of its own kind, the one that works in the order
of the grants. A bucket of the shared store is behind that store by what the threads that have its lock are
about to do.
-/

namespace LineStore.Store.Contention

/-- The chain of a shard comes to this one when all that have its lock have done their work. -/
structure Settles (contention : Contention) (i : Nat) (chain expected : Chain) : Prop where
  held : ∀ thread caller operation, contention.Holds thread i caller operation →
    (caller.due operation chain).2 = expected
  free : (∀ thread caller operation, ¬ contention.Holds thread i caller operation) → chain = expected

/-- The operations that a thread was granted are those that it has finished and the one that it is about,
and it has or will have these answers to them. -/
inductive Served (contention : Contention) (thread : Nat) (todo : List Operation) (caller : Caller) :
    List Operation → List Outcome → Prop where
  | free {finished : List Operation}
      (hfree : ∀ i caller operation, ¬ contention.Holds thread i caller operation)
      (htodo : todo = finished ++ caller.todo) (hlength : finished.length = caller.outcomes.length) :
      Served contention thread todo caller finished caller.outcomes
  | held {finished : List Operation} {operation : Operation} {shard : Shard}
      (hholds : contention.Holds thread (contention.place operation) caller operation)
      (hshard : contention.shards[contention.place operation]? = some shard)
      (hseen : ∀ found?, caller.progress = .looked found? →
        found? = shard.chain.find? operation.key)
      (htodo : todo = finished ++ caller.todo) (hlength : finished.length = caller.outcomes.length) :
      Served contention thread todo caller (finished ++ [operation])
        (caller.outcomes ++ [(caller.due operation shard.chain).1])

/-- The operations of a thread that were granted their locks. -/
def granted (contention : Contention) (thread : Nat) : List Operation :=
  (contention.grants.filter fun grant => grant.1 = thread).map Prod.snd

/-- With these answers in the order of the grants, and this store after them, every thread has the answers
that it should have, and every bucket is or will be what it should be. -/
structure Linear (todos : List (List Operation)) (contention : Contention) (outcomes : List Outcome)
    (store : Store) : Prop where
  bucketCount_eq : store.bucketCount = contention.shards.length
  callers_eq : contention.callers.length = todos.length
  threads_lt : ∀ grant ∈ contention.grants, grant.1 < todos.length
  length_eq : outcomes.length = contention.grants.length
  settles : ∀ (i : Nat) (shard : Shard), contention.shards[i]? = some shard →
    ∃ expected, store.chains[i]? = some expected ∧ contention.Settles i shard.chain expected
  served : ∀ (thread : Nat) (caller : Caller), contention.callers[thread]? = some caller →
    ∃ todo, todos[thread]? = some todo ∧
      contention.Served thread todo caller (contention.granted thread)
        (contention.outcomesOf outcomes thread)

variable {capacity count : Nat} {contention after : Contention} {thread : Nat} {operation : Operation}
  {caller caller' : Caller} {shard shard' : Shard}

/-! ### The order of the grants -/

theorem granted_append (hgrants : after.grants = contention.grants ++ [(thread, operation)])
    (other : Nat) :
    after.granted other = contention.granted other ++ if thread = other then [operation] else [] := by
  rw [granted, hgrants, List.filter_append, List.map_append]
  congr 1
  by_cases h : thread = other <;> simp [h]

theorem outcomesOf_append {outcomes : List Outcome} {outcome : Outcome}
    (hlength : outcomes.length = contention.grants.length)
    (hgrants : after.grants = contention.grants ++ [(thread, operation)]) (other : Nat) :
    after.outcomesOf (outcomes ++ [outcome]) other =
      contention.outcomesOf outcomes other ++ if thread = other then [outcome] else [] := by
  rw [outcomesOf, hgrants, List.zip_append hlength.symm, List.filter_append, List.map_append]
  congr 1
  by_cases h : thread = other <;> simp [h]

/-! ### One step: buckets -/

section

variable (hword : capacity < UInt64.size) (hlocked : contention.Locked capacity count)
  (hlocked' : after.Locked capacity count)
  (hturn : Turn contention after thread operation caller caller' shard shard')
  (hdeed : Deed contention after thread operation caller shard caller' shard')
  (hpassage : Passage contention after thread operation caller caller' shard.chain shard'.chain)

include hlocked hturn in
theorem holds_iff_of_place_ne {i other : Nat} (hne : i ≠ contention.place operation)
    {caller'' : Caller} {next : Operation} :
    after.Holds other i caller'' next ↔ contention.Holds other i caller'' next := by
  by_cases hother : other = thread
  · have haway : contention.stageAt i thread = .away := by
      rw [← Lock.Stage.access?_eq_none_iff, hlocked.access thread caller hturn.caller_eq]
      exact wants_of_ne hturn.head_eq hne
    constructor
    · intro h
      have hstage := h.stage
      rw [hother, hturn.stageAt_of_place_ne hne, haway] at hstage
      cases hstage
    · intro h
      have hstage := h.stage
      rw [hother, haway] at hstage
      cases hstage
  · exact hturn.holds_iff hother

include hlocked hturn in
theorem Settles.of_place_ne {i : Nat} {chain expected : Chain} (h : contention.Settles i chain expected)
    (hne : i ≠ contention.place operation) : after.Settles i chain expected := by
  constructor
  · intro other caller'' next hholds
    exact h.held other caller'' next ((holds_iff_of_place_ne hlocked hturn hne).1 hholds)
  · intro hfree
    refine h.free fun other caller'' next hholds => ?_
    exact hfree other caller'' next ((holds_iff_of_place_ne hlocked hturn hne).2 hholds)

include hword hlocked hturn hdeed hpassage in
/-- A step that grants nothing brings the chain no nearer to another end. -/
theorem Settles.keep {expected : Chain}
    (h : contention.Settles (contention.place operation) shard.chain expected)
    (hgrants : after.grants = contention.grants) :
    after.Settles (contention.place operation) shard'.chain expected := by
  constructor
  · intro other caller'' next hholds
    by_cases hother : other = thread
    · subst hother
      cases hpassage with
      | outside _ hafter => exact absurd hholds (hafter _ _ _)
      | granted _ _ _ _ _ _ hmore =>
        simp [hgrants] at hmore
      | working hbefore hafter hdue =>
        cases hholds.caller_eq.symm.trans hafter.caller_eq
        cases hholds.head_eq.symm.trans hafter.head_eq
        rw [hdue]
        exact h.held other caller operation hbefore
      | done _ hafter => exact absurd hholds (hafter _ _ _)
    · have hbefore := (hturn.holds_iff hother).1 hholds
      rw [hdeed.chain_eq hword hlocked hturn hother hbefore]
      exact h.held other caller'' next hbefore
  · intro hfree
    cases hpassage with
    | outside hbefore _ hchain =>
      rw [hchain]
      refine h.free fun other caller'' next hholds => ?_
      by_cases hother : other = thread
      · exact hbefore _ _ _ (hother ▸ hholds)
      · exact hfree other caller'' next ((hturn.holds_iff hother).2 hholds)
    | granted _ hafter => exact absurd hafter (hfree _ _ _)
    | working _ hafter => exact absurd hafter (hfree _ _ _)
    | done hbefore _ hdue hchain =>
      rw [hchain, ← h.held thread caller operation hbefore, hdue]

include hword hlocked' hturn hpassage in
/-- An operation that is granted its lock finds the bucket as the operations before it leave it. -/
theorem Settles.grant {expected : Chain}
    (h : contention.Settles (contention.place operation) shard.chain expected)
    (hgrants : after.grants = contention.grants ++ [(thread, operation)]) :
    expected = shard.chain ∧
      after.Settles (contention.place operation) shard'.chain (shard.chain.perform operation).2 := by
  cases hpassage with
  | outside _ _ _ _ _ hsame | working _ _ _ _ _ _ hsame | done _ _ _ _ _ _ hsame =>
    simp [hsame] at hgrants
  | granted hbefore hafter hprogress hchain =>
    -- whoever else has the lock reads, and so does this thread then
    have hshared : ∀ other caller'' next,
        contention.Holds other (contention.place operation) caller'' next →
        operation.access = .read ∧ next.access = .read := by
      intro other caller'' next hholds
      have hne : other ≠ thread := by
        rintro rfl
        exact hbefore _ _ _ hholds
      have hother := (hturn.holds_iff hne).2 hholds
      constructor
      · cases haccess : operation.access with
        | read => rfl
        | write => exact absurd (hafter.alone hword hlocked' haccess hother).symm hne
      · cases haccess : next.access with
        | read => rfl
        | write => exact absurd (hother.alone hword hlocked' haccess hafter) hne
    have hexpected : expected = shard.chain := by
      by_cases hfree : ∃ other caller'' next,
          contention.Holds other (contention.place operation) caller'' next
      · obtain ⟨other, caller'', next, hholds⟩ := hfree
        rw [← h.held other caller'' next hholds]
        exact Caller.due_of_read (hshared other caller'' next hholds).2 _
      · refine (h.free fun other caller'' next hholds => hfree ?_).symm
        exact ⟨other, caller'', next, hholds⟩
    refine ⟨hexpected, fun other caller'' next hholds => ?_, fun hfree => absurd hafter (hfree _ _ _)⟩
    rw [hchain]
    by_cases hother : other = thread
    · subst hother
      cases hholds.caller_eq.symm.trans hafter.caller_eq
      cases hholds.head_eq.symm.trans hafter.head_eq
      simp only [Caller.due, hprogress]
    · obtain ⟨hread, hnext⟩ := hshared other caller'' next ((hturn.holds_iff hother).1 hholds)
      rw [Caller.due_of_read hnext, Chain.perform_of_read hread]

/-! ### One step: threads -/

include hword hlocked hturn hdeed in
theorem Served.of_ne {other : Nat} {todo finished : List Operation} {caller'' : Caller}
    {answers : List Outcome} (h : contention.Served other todo caller'' finished answers)
    (hne : other ≠ thread) : after.Served other todo caller'' finished answers := by
  cases h with
  | free hfree htodo hlength =>
    refine .free (fun i caller'' next hholds => ?_) htodo hlength
    exact hfree i caller'' next ((hturn.holds_iff hne).1 hholds)
  | @held finished next bucket hholds hbucket hseen htodo hlength =>
    have hafter := (hturn.holds_iff hne).2 hholds
    rw [← hturn.place_eq] at hafter
    by_cases hplace : contention.place next = contention.place operation
    · rw [hplace, hturn.shard_eq, Option.some_inj] at hbucket
      rw [hplace] at hholds
      have hchain := hdeed.chain_eq hword hlocked hturn hne hholds
      rw [← hbucket, ← hchain]
      rw [← hbucket, ← hchain] at hseen
      refine .held hafter ?_ hseen htodo hlength
      rw [hturn.place_eq, hplace, hturn.shards_self]
    · refine .held hafter ?_ hseen htodo hlength
      rw [hturn.place_eq, hturn.shards_of_ne hplace, hbucket]

include hturn hpassage in
theorem Served.keep {todo finished : List Operation} {answers : List Outcome}
    (h : contention.Served thread todo caller finished answers)
    (hgrants : after.grants = contention.grants) :
    after.Served thread todo caller' finished answers := by
  cases hpassage with
  | outside hbefore hafter hchain htodo houtcomes =>
    cases h with
    | free _ hsplit hlength =>
      rw [← htodo] at hsplit
      rw [← houtcomes] at hlength ⊢
      exact .free hafter hsplit hlength
    | held hholds => exact absurd hholds (hbefore _ _ _)
  | granted _ _ _ _ _ _ hmore => simp [hgrants] at hmore
  | working hbefore hafter hdue hseen htodo houtcomes =>
    cases h with
    | free hfree => exact absurd hbefore (hfree _ _ _)
    | @held finished next bucket hholds hbucket _ hsplit hlength =>
      cases hholds.head_eq.symm.trans hbefore.head_eq
      cases hbucket.symm.trans hturn.shard_eq
      rw [← hturn.place_eq] at hafter
      rw [← htodo] at hsplit
      rw [← houtcomes] at hlength ⊢
      rw [← hdue]
      refine .held hafter ?_ hseen hsplit hlength
      rw [hturn.place_eq, hturn.shards_self]
  | done hbefore hafter hdue _ htodo houtcomes =>
    cases h with
    | free hfree => exact absurd hbefore (hfree _ _ _)
    | @held finished next bucket hholds hbucket _ hsplit hlength =>
      cases hholds.head_eq.symm.trans hbefore.head_eq
      cases hbucket.symm.trans hturn.shard_eq
      rw [hdue, ← houtcomes]
      refine .free hafter ?_ ?_
      · rw [hsplit, htodo, List.append_assoc, List.singleton_append]
        exact congrArg (finished ++ ·) (List.eq_cons_of_mem_head? hbefore.head_eq)
      · rw [houtcomes, List.length_append, List.length_append, hlength]
        rfl

include hturn hpassage in
theorem Served.grant {todo finished : List Operation} {answers : List Outcome}
    (h : contention.Served thread todo caller finished answers)
    (hgrants : after.grants = contention.grants ++ [(thread, operation)]) :
    after.Served thread todo caller' (finished ++ [operation])
      (answers ++ [(shard.chain.perform operation).1]) := by
  cases hpassage with
  | outside _ _ _ _ _ hsame | working _ _ _ _ _ _ hsame | done _ _ _ _ _ _ hsame =>
    simp [hsame] at hgrants
  | granted hbefore hafter hprogress hchain htodo houtcomes =>
    cases h with
    | free _ hsplit hlength =>
      have hdue : caller'.due operation shard'.chain = shard.chain.perform operation := by
        simp only [Caller.due, hprogress, hchain]
      rw [← hturn.place_eq] at hafter
      rw [← htodo] at hsplit
      rw [← houtcomes] at hlength ⊢
      rw [← hdue]
      refine .held hafter ?_ (fun found? hlooked => ?_) hsplit hlength
      · rw [hturn.place_eq, hturn.shards_self]
      · cases hprogress.symm.trans hlooked
    | held hholds => exact absurd hholds (hbefore _ _ _)

/-! ### One step: all of it -/

include hlocked hturn in
/-- What a thread saw in its bucket is still there. -/
theorem Linear.seen {todos : List (List Operation)} {outcomes : List Outcome} {store : Store}
    (h : contention.Linear todos outcomes store) :
    ∀ found?, caller.progress = .looked found? → found? = shard.chain.find? operation.key := by
  intro found? hlooked
  have hholds := hturn.holds_before (hlocked.held_self hturn (by simp [hlooked]))
  obtain ⟨todo, -, hserved⟩ := h.served thread caller hturn.caller_eq
  generalize contention.granted thread = finished, contention.outcomesOf outcomes thread = answers
    at hserved
  cases hserved with
  | free hfree => exact absurd hholds (hfree _ _ _)
  | held hother hbucket hseen =>
    cases hother.head_eq.symm.trans hholds.head_eq
    cases hbucket.symm.trans hturn.shard_eq
    exact hseen found? hlooked

include hword hlocked hturn hdeed hpassage

theorem Linear.keep {todos : List (List Operation)} {outcomes : List Outcome} {store : Store}
    (h : contention.Linear todos outcomes store) (hgrants : after.grants = contention.grants) :
    after.Linear todos outcomes store := by
  have hgranted : ∀ other, after.granted other = contention.granted other := fun other => by
    rw [granted, granted, hgrants]
  have houtcomes : ∀ other, after.outcomesOf outcomes other = contention.outcomesOf outcomes other :=
    fun other => by rw [outcomesOf, outcomesOf, hgrants]
  constructor
  · rw [h.bucketCount_eq, hturn.shards, List.length_set]
  · rw [hturn.callers, List.length_set, h.callers_eq]
  · rw [hgrants]
    exact h.threads_lt
  · rw [hgrants, h.length_eq]
  · intro i bucket hi
    by_cases hplace : i = contention.place operation
    · rw [hplace, hturn.shards_self] at hi
      cases hi
      obtain ⟨expected, hexpected, hsettles⟩ := h.settles _ shard hturn.shard_eq
      rw [hplace]
      exact ⟨expected, hexpected, hsettles.keep hword hlocked hturn hdeed hpassage hgrants⟩
    · rw [hturn.shards_of_ne hplace] at hi
      obtain ⟨expected, hexpected, hsettles⟩ := h.settles i bucket hi
      exact ⟨expected, hexpected, hsettles.of_place_ne hlocked hturn hplace⟩
  · intro other caller'' hother
    rw [hgranted, houtcomes]
    by_cases hne : other = thread
    · rw [hne, hturn.callers_self] at hother
      cases hother
      obtain ⟨todo, htodo, hserved⟩ := h.served thread caller hturn.caller_eq
      rw [hne]
      exact ⟨todo, htodo, hserved.keep hturn hpassage hgrants⟩
    · rw [hturn.callers_of_ne hne] at hother
      obtain ⟨todo, htodo, hserved⟩ := h.served other caller'' hother
      exact ⟨todo, htodo, hserved.of_ne hword hlocked hturn hdeed hne⟩

include hlocked' in
theorem Linear.grant {todos : List (List Operation)} {outcomes : List Outcome} {store : Store}
    (h : contention.Linear todos outcomes store)
    (hgrants : after.grants = contention.grants ++ [(thread, operation)]) :
    after.Linear todos (outcomes ++ [(store.perform operation).1]) (store.perform operation).2 := by
  obtain ⟨expected, hexpected, hsettles⟩ := h.settles _ shard hturn.shard_eq
  obtain ⟨hsame, hsettled⟩ := hsettles.grant hword hlocked' hturn hpassage hgrants
  have hplace : bucketOf operation.key store.bucketCount = contention.place operation := by
    rw [h.bucketCount_eq, place]
  have hchain : store.chainOf operation.key = shard.chain := by
    have hget := chainOf_eq_some store operation.key
    rw [hplace, hexpected, hsame] at hget
    exact (Option.some.inj hget).symm
  have hanswer : (store.perform operation).1 = (shard.chain.perform operation).1 := by
    rw [perform_eq_setChain, hchain]
  constructor
  · rw [bucketCount_perform, h.bucketCount_eq, hturn.shards, List.length_set]
  · rw [hturn.callers, List.length_set, h.callers_eq]
  · intro grant hgrant
    rw [hgrants] at hgrant
    rcases List.mem_append.1 hgrant with hold | hnew
    · exact h.threads_lt grant hold
    · rw [List.eq_of_mem_singleton hnew, ← h.callers_eq]
      exact (List.getElem?_eq_some_iff.1 hturn.caller_eq).1
  · rw [hgrants, List.length_append, List.length_append, h.length_eq]
    rfl
  · intro i bucket hi
    rw [chains_perform, hplace, hchain]
    by_cases hi' : i = contention.place operation
    · rw [hi', hturn.shards_self] at hi
      cases hi
      rw [hi', if_pos rfl]
      exact ⟨_, rfl, hsettled⟩
    · rw [hturn.shards_of_ne hi'] at hi
      rw [if_neg (Ne.symm hi')]
      obtain ⟨expected, hexpected, hsettles⟩ := h.settles i bucket hi
      exact ⟨expected, hexpected, hsettles.of_place_ne hlocked hturn hi'⟩
  · intro other caller'' hother
    rw [granted_append hgrants, outcomesOf_append h.length_eq hgrants]
    by_cases hne : other = thread
    · rw [hne, hturn.callers_self] at hother
      cases hother
      obtain ⟨todo, htodo, hserved⟩ := h.served thread caller hturn.caller_eq
      rw [hne, if_pos rfl, if_pos rfl, hanswer]
      exact ⟨todo, htodo, hserved.grant hturn hpassage hgrants⟩
    · rw [hturn.callers_of_ne hne] at hother
      obtain ⟨todo, htodo, hserved⟩ := h.served other caller'' hother
      rw [if_neg (Ne.symm hne), if_neg (Ne.symm hne), List.append_nil, List.append_nil]
      exact ⟨todo, htodo, hserved.of_ne hword hlocked hturn hdeed hne⟩

end

/-! ### Every state -/

theorem linear_start {buckets : Nat} (hbuckets : 0 < buckets) (capacity : Nat)
    (todos : List (List Operation)) :
    (start buckets capacity todos).Linear todos [] (empty buckets hbuckets) := by
  have hlocked := locked_start buckets capacity todos
  have hcaller : ∀ (thread : Nat) (caller : Caller),
      (start buckets capacity todos).callers[thread]? = some caller →
      ∃ todo, todos[thread]? = some todo ∧ caller = { todo } := by
    intro thread caller hcaller
    rw [start, List.getElem?_map] at hcaller
    obtain ⟨todo, htodo, rfl⟩ := Option.map_eq_some_iff.1 hcaller
    exact ⟨todo, htodo, rfl⟩
  have hfree : ∀ thread i caller operation,
      ¬ (start buckets capacity todos).Holds thread i caller operation := by
    intro thread i caller operation hholds
    obtain ⟨todo, -, rfl⟩ := hcaller thread caller hholds.caller_eq
    exact hholds.progress_ne_idle hlocked rfl
  constructor
  · rw [start, List.length_replicate]
    exact Array.size_replicate
  · rw [start, List.length_map]
  · intro grant hgrant
    cases hgrant
  · rfl
  · intro i shard hi
    obtain ⟨hlt, rfl⟩ := List.getElem?_eq_some_iff.1 hi
    rw [start, List.length_replicate] at hlt
    refine ⟨{}, ?_, fun thread caller operation hholds => absurd hholds (hfree _ _ _ _), fun _ => ?_⟩
    · rw [empty, Array.getElem?_replicate, if_pos hlt]
    · simp [start]
  · intro thread caller hthread
    obtain ⟨todo, htodo, rfl⟩ := hcaller thread caller hthread
    exact ⟨todo, htodo, .free (hfree thread) rfl rfl⟩

theorem Deed.grants_cases (hdeed : Deed contention after thread operation caller shard caller' shard') :
    after.grants = contention.grants ∨
      after.grants = contention.grants ++ [(thread, operation)] := by
  cases hdeed with
  | wait _ _ _ _ hgrants | look _ _ hgrants | change _ hgrants | leave _ _ hgrants =>
    exact .inl hgrants
  | grant _ _ _ _ hgrants => exact .inr hgrants

theorem Reachable.linear {buckets : Nat} {todos : List (List Operation)} (hbuckets : 0 < buckets)
    (hword : capacity < UInt64.size) (h : Reachable buckets capacity todos contention) :
    contention.Locked capacity todos.length ∧
      contention.Linear todos ((empty buckets hbuckets).performAll contention.order).1
        ((empty buckets hbuckets).performAll contention.order).2 := by
  -- on the run; only a grant makes the store that works in order take a step
  induction h with
  | start => exact ⟨locked_start .., linear_start hbuckets capacity todos⟩
  | step _ hact ih =>
    obtain ⟨hlocked, hlinear⟩ := ih
    obtain ⟨thread, operation, caller, caller', shard, shard', hturn, hdeed, hcrowd⟩ :=
      hlocked.turn hword hact
    have hlocked' := hlocked.of_turn hturn hdeed hcrowd
    have hpassage := hdeed.passage hlocked hlocked' hturn (hlinear.seen hlocked hturn)
    refine ⟨hlocked', ?_⟩
    rcases hdeed.grants_cases with hgrants | hgrants
    · rw [order, hgrants]
      exact hlinear.keep hword hlocked hturn hdeed hpassage hgrants
    · rw [order, hgrants, List.map_append, performAll_append]
      exact hlinear.grant hword hlocked hlocked' hturn hdeed hpassage hgrants

end LineStore.Store.Contention
