import LineStore.Proofs.Store.Keywise
import LineStore.Proofs.Store.Linear
import Mathlib.Algebra.BigOperators.Group.Finset.Basic
import Mathlib.Algebra.BigOperators.Group.Finset.Piecewise

/-!
What threads that race for the same keys can count on. Their answers are those of one operation after
another, so that of the threads that insert a key just one is told that it made the entry, and nothing that
a thread was told it had changed is lost.
-/

namespace LineStore.Store

namespace Contents

/-- The contents after an operation, going by its answer. -/
def credit (contents : Contents) : Operation × Outcome → Contents
  | (.insert key value, .insert true) | (.update key value, .update true) => contents.set key (some value)
  | (.delete key, .delete true) => contents.set key none
  | _ => contents

/-- Whether an operation was told that it made the entry of a key. -/
def creates (key : String) : Operation × Outcome → Bool
  | (.insert other _, .insert true) => other = key
  | _ => false

variable {contents : Contents} {operation : Operation} {key : String}

theorem credit_perform (contents : Contents) (operation : Operation) :
    contents.credit (operation, (contents.perform operation).1) = (contents.perform operation).2 := by
  cases operation with
  | search key => rfl
  | insert key value | update key value | delete key =>
    cases hkey : contents key <;> simp only [perform, hkey, credit]

theorem performAll_eq_foldl_credit (contents : Contents) (operations : List Operation) :
    (contents.performAll operations).2 =
      (operations.zip (contents.performAll operations).1).foldl credit contents := by
  induction operations generalizing contents with
  | nil => rfl
  | cons operation operations ih =>
    simp only [performAll, List.zip_cons_cons, List.foldl_cons, credit_perform]
    exact ih _

/-! ### The operation that makes the entry -/

theorem creates_perform_iff :
    creates key (operation, (contents.perform operation).1) = true ↔
      contents key = none ∧ ∃ value, operation = .insert key value := by
  cases operation with
  | insert other value =>
    cases hother : contents other with
    | none =>
      simp only [perform, hother, creates, decide_eq_true_eq, Operation.insert.injEq]
      constructor
      · rintro rfl
        exact ⟨hother, value, rfl, rfl⟩
      · rintro ⟨-, -, rfl, -⟩
        rfl
    | some old =>
      simp only [perform, hother, creates, Bool.false_eq_true, false_iff, Operation.insert.injEq]
      rintro ⟨hnone, -, rfl, -⟩
      cases hother.symm.trans hnone
  | search other => simp [creates]
  | update other value | delete other => simp [creates]

theorem perform_ne_none (h : contents key ≠ none) (hdelete : operation ≠ .delete key) :
    (contents.perform operation).2 key ≠ none := by
  by_cases hkey : operation.key = key
  · subst hkey
    obtain ⟨value, hvalue⟩ := Option.ne_none_iff_exists'.1 h
    cases operation with
    | delete other => exact absurd rfl hdelete
    | insert other value | search other | update other value =>
      simp only [Operation.key] at hvalue
      simp [perform, Operation.key, hvalue, set]
  · rwa [perform_of_key_ne hkey]

theorem perform_eq_none (h : contents key = none) (hinsert : ∀ value, operation ≠ .insert key value) :
    (contents.perform operation).2 key = none := by
  by_cases hkey : operation.key = key
  · subst hkey
    cases operation with
    | insert other value => exact absurd rfl (hinsert value)
    | search other => exact h
    | update other value | delete other =>
      simp only [Operation.key] at h
      simp [perform, Operation.key, h]
  · rwa [perform_of_key_ne hkey]

/-- How many of a sequence of operations made the entry of a key. -/
def creations (contents : Contents) (operations : List Operation) (key : String) : Nat :=
  (operations.zip (contents.performAll operations).1).countP (creates key)

theorem creations_cons (operations : List Operation) :
    contents.creations (operation :: operations) key =
      (contents.perform operation).2.creations operations key +
        if creates key (operation, (contents.perform operation).1) then 1 else 0 := by
  simp only [creations, performAll, List.zip_cons_cons, List.countP_cons]

theorem creations_of_present {operations : List Operation} (h : contents key ≠ none)
    (hdelete : .delete key ∉ operations) : contents.creations operations key = 0 := by
  induction operations generalizing contents with
  | nil => rfl
  | cons operation operations ih =>
    obtain ⟨hne, hrest⟩ := List.ne_and_not_mem_of_not_mem_cons hdelete
    have hcreates : ¬ creates key (operation, (contents.perform operation).1) = true :=
      fun hcreates => h (creates_perform_iff.1 hcreates).1
    rw [creations_cons, if_neg hcreates, ih (perform_ne_none h hne.symm) hrest]

/-- Of operations on a key that has no entry, the first insert makes it, and no other one does unless the
entry is taken out. -/
theorem creations_of_absent {operations : List Operation} (h : contents key = none)
    (hdelete : .delete key ∉ operations) (hinsert : ∃ value, .insert key value ∈ operations) :
    contents.creations operations key = 1 := by
  induction operations generalizing contents with
  | nil =>
    obtain ⟨value, hvalue⟩ := hinsert
    cases hvalue
  | cons operation operations ih =>
    obtain ⟨hne, hrest⟩ := List.ne_and_not_mem_of_not_mem_cons hdelete
    by_cases hfirst : ∃ value, operation = .insert key value
    · have hcreates : creates key (operation, (contents.perform operation).1) = true :=
        creates_perform_iff.2 ⟨h, hfirst⟩
      have hpresent : (contents.perform operation).2 key ≠ none := by
        obtain ⟨value, rfl⟩ := hfirst
        simp [perform, h, set]
      rw [creations_cons, if_pos hcreates, creations_of_present hpresent hrest]
    · have hcreates : ¬ creates key (operation, (contents.perform operation).1) = true :=
        fun hcreates => hfirst (creates_perform_iff.1 hcreates).2
      have habsent := perform_eq_none h fun value heq => hfirst ⟨value, heq⟩
      have hlater : ∃ value, .insert key value ∈ operations := by
        obtain ⟨value, hvalue⟩ := hinsert
        rcases List.mem_cons.1 hvalue with rfl | hvalue
        · exact absurd ⟨value, rfl⟩ hfirst
        · exact ⟨value, hvalue⟩
      rw [creations_cons, if_neg hcreates, ih habsent hrest hlater]

end Contents

namespace Contention

/-- What is in the store. -/
def contents (contention : Contention) : Contents := fun key =>
  contention.shards[bucketOf key contention.shards.length]?.bind fun shard => shard.chain.find? key

/-- The operations that the threads have finished, with their answers. -/
def answers (contention : Contention) (todos : List (List Operation)) : List (Operation × Outcome) :=
  (todos.zip contention.callers).flatMap fun (todo, caller) => todo.zip caller.outcomes

/-- What threads that share a store have to show for the operations before them, when these answers come of
doing the operations that were granted their locks one after another, and lead to this store. -/
structure Serial (todos : List (List Operation)) (contention : Contention) (outcomes : List Outcome)
    (store : Store) : Prop where
  /-- Every thread does its operations in their order, and has these answers to those that it has
  finished. -/
  answered : ∀ (thread : Nat) (todo : List Operation), todos[thread]? = some todo →
    ∃ caller, contention.callers[thread]? = some caller ∧
      caller.todo = todo.drop caller.outcomes.length ∧
      contention.granted thread <+: todo ∧
      caller.outcomes <+: contention.outcomesOf outcomes thread
  /-- In the end all operations have been granted their locks, and the buckets are those of this store. -/
  finished : contention.Finished →
    (∀ (thread : Nat) (todo : List Operation), todos[thread]? = some todo →
      contention.granted thread = todo ∧
        (contention.callers[thread]?.map Caller.outcomes) = some (contention.outcomesOf outcomes thread)) ∧
    contention.shards.map Shard.chain = store.chains.toList ∧ contention.contents = store.contents
  /-- All that a thread was told it had changed shows in the end, unless it was changed again. -/
  credited : contention.Finished →
    contention.contents = (contention.order.zip outcomes).foldl Contents.credit Contents.empty
  /-- Of the inserts of a key that has no entry at some point, one makes it. -/
  created_since : ∀ (key : String) (before after : List Operation), contention.order = before ++ after →
    (Contents.empty.performAll before).2 key = none → .delete key ∉ after →
    (∃ value, .insert key value ∈ after) →
    (after.zip (outcomes.drop before.length)).countP (Contents.creates key) = 1
  /-- Of all inserts of a key that no thread takes out, one was told that it made the entry. -/
  created : ∀ (key : String), contention.Finished → (∀ todo ∈ todos, .delete key ∉ todo) →
    (∃ todo ∈ todos, ∃ value, .insert key value ∈ todo) →
    (contention.answers todos).countP (Contents.creates key) = 1

variable {capacity : Nat} {contention : Contention} {thread : Nat} {operation : Operation}
  {todo finished : List Operation}
  {todos : List (List Operation)} {caller : Caller} {outcomes answers : List Outcome} {store : Store}

/-! ### Threads -/

theorem Served.todo_eq (h : contention.Served thread todo caller finished answers) :
    caller.todo = todo.drop caller.outcomes.length := by
  cases h with
  | free _ htodo hlength => rw [htodo, ← hlength, List.drop_left]
  | held _ _ _ htodo hlength => rw [htodo, ← hlength, List.drop_left]

theorem Served.granted_prefix (h : contention.Served thread todo caller finished answers) :
    finished <+: todo := by
  cases h with
  | free _ htodo => exact ⟨_, htodo.symm⟩
  | @held finished operation shard hholds _ _ htodo =>
    refine ⟨caller.todo.tail, ?_⟩
    rw [htodo, List.append_assoc, List.singleton_append]
    exact congrArg (finished ++ ·) (List.eq_cons_of_mem_head? hholds.head_eq).symm

theorem Served.outcomes_prefix (h : contention.Served thread todo caller finished answers) :
    caller.outcomes <+: answers := by
  cases h with
  | free => exact List.prefix_rfl
  | held => exact List.prefix_append _ _

theorem Served.eq_of_todo (h : contention.Served thread todo caller finished answers)
    (hdone : caller.todo = []) : finished = todo ∧ answers = caller.outcomes := by
  cases h with
  | free _ htodo => exact ⟨by rw [htodo, hdone, List.append_nil], rfl⟩
  | held hholds =>
    have hhead := hholds.head_eq
    rw [hdone] at hhead
    cases hhead

theorem Linear.served_of (h : contention.Linear todos outcomes store) (htodo : todos[thread]? = some todo) :
    ∃ caller, contention.callers[thread]? = some caller ∧
      contention.Served thread todo caller (contention.granted thread)
        (contention.outcomesOf outcomes thread) := by
  have hlt : thread < contention.callers.length := by
    rw [h.callers_eq]
    exact (List.getElem?_eq_some_iff.1 htodo).1
  have hcaller := List.getElem?_eq_getElem hlt
  obtain ⟨todo', htodo', hserved⟩ := h.served thread _ hcaller
  cases htodo.symm.trans htodo'
  exact ⟨_, hcaller, hserved⟩

/-! ### The end -/

theorem Finished.free (h : contention.Finished) (thread i : Nat) (caller : Caller) (operation : Operation) :
    ¬ contention.Holds thread i caller operation := by
  intro hholds
  have hhead := hholds.head_eq
  rw [h caller (List.mem_of_getElem? hholds.caller_eq)] at hhead
  cases hhead

theorem Linear.chains_eq (h : contention.Linear todos outcomes store) (hfinished : contention.Finished) :
    contention.shards.map Shard.chain = store.chains.toList := by
  refine List.ext_getElem? fun i => ?_
  rw [List.getElem?_map, Array.getElem?_toList]
  cases hi : contention.shards[i]? with
  | some shard =>
    obtain ⟨expected, hexpected, hsettles⟩ := h.settles i shard hi
    rw [hexpected, ← hsettles.free fun _ _ _ => hfinished.free _ _ _ _]
    rfl
  | none =>
    have hle := List.getElem?_eq_none_iff.1 hi
    rw [← h.bucketCount_eq] at hle
    exact (Array.getElem?_eq_none hle).symm

theorem contents_of_chains (h : contention.shards.map Shard.chain = store.chains.toList) :
    contention.contents = store.contents := by
  have hcount : contention.shards.length = store.bucketCount := by
    rw [bucketCount, ← Array.length_toList, ← h, List.length_map]
  funext key
  have hchain := chainOf_eq_some store key
  rw [← Array.getElem?_toList, ← h, List.getElem?_map] at hchain
  obtain ⟨shard, hshard, hsame⟩ := Option.map_eq_some_iff.1 hchain
  rw [contents, hcount, hshard, Store.contents, search, ← hsame]
  rfl

/-! ### Answers by threads and answers in order -/

/-- An element of a list is counted once, with those of its own number. -/
theorem countP_flatMap_filter {α : Type} {f : α → Nat} {count : Nat} (p : α → Bool) {l : List α}
    (h : ∀ a ∈ l, f a < count) :
    ((List.range count).flatMap fun i => l.filter fun a => f a = i).countP p = l.countP p := by
  -- by induction on the list: its head is in one part, and the other parts do not change
  have hsum : ∑ i ∈ Finset.range count, (l.filter fun a => f a = i).countP p = l.countP p := by
    induction l with
    | nil => exact Finset.sum_const_zero
    | cons a l ih =>
      have hrest := ih fun b hb => h b (List.mem_cons_of_mem _ hb)
      have ha : f a ∈ Finset.range count := Finset.mem_range.2 (h a List.mem_cons_self)
      have hcount : ∀ i, ((a :: l).filter fun b => f b = i).countP p =
          (l.filter fun b => f b = i).countP p + if f a = i then (if p a then 1 else 0) else 0 := by
        intro i
        by_cases hi : f a = i <;> simp [hi, List.countP_cons]
      simp only [hcount, Finset.sum_add_distrib, hrest, Finset.sum_ite_eq, if_pos ha, List.countP_cons]
  exact List.countP_flatMap.trans hsum

theorem granted_zip_outcomesOf (hlength : outcomes.length = contention.grants.length) (thread : Nat) :
    (contention.granted thread).zip (contention.outcomesOf outcomes thread) =
      ((contention.grants.zip outcomes).filter fun answered => answered.1.1 = thread).map
        (Prod.map Prod.snd id) := by
  have hgrants : contention.grants = (contention.grants.zip outcomes).map Prod.fst :=
    (List.map_fst_zip hlength.ge).symm
  have hgranted : contention.granted thread =
      ((contention.grants.zip outcomes).filter fun answered => answered.1.1 = thread).map
        fun answered => answered.1.2 := by
    conv_lhs => rw [granted, hgrants, List.filter_map, List.map_map]
    rfl
  rw [hgranted, outcomesOf, List.zip_map']
  rfl

theorem Linear.answers_eq (h : contention.Linear todos outcomes store) (hfinished : contention.Finished) :
    contention.answers todos = (List.range todos.length).flatMap fun thread =>
      (contention.granted thread).zip (contention.outcomesOf outcomes thread) := by
  rw [Contention.answers, List.flatMap_def, List.flatMap_def]
  congr 1
  refine List.ext_getElem? fun thread => ?_
  rw [List.getElem?_map, List.getElem?_map]
  cases htodo : todos[thread]? with
  | none =>
    have hle := List.getElem?_eq_none_iff.1 htodo
    have hzip : (todos.zip contention.callers)[thread]? = none := by
      rw [List.getElem?_eq_none_iff, List.length_zip]
      exact (Nat.min_le_left _ _).trans hle
    rw [hzip, List.getElem?_eq_none_iff.2 (by rwa [List.length_range])]
    rfl
  | some todo =>
    obtain ⟨caller, hcaller, hserved⟩ := h.served_of htodo
    obtain ⟨hgranted, houtcomes⟩ :=
      hserved.eq_of_todo (hfinished caller (List.mem_of_getElem? hcaller))
    have hzip : (todos.zip contention.callers)[thread]? = some (todo, caller) :=
      List.getElem?_zip_eq_some.2 ⟨htodo, hcaller⟩
    rw [hzip, List.getElem?_range (List.getElem?_eq_some_iff.1 htodo).1, Option.map_some,
      Option.map_some, hgranted, houtcomes]

/-- The threads were told what the operations in their order are told. -/
theorem Linear.countP_answers (h : contention.Linear todos outcomes store)
    (hfinished : contention.Finished) (p : Operation × Outcome → Bool) :
    (contention.answers todos).countP p = (contention.order.zip outcomes).countP p := by
  have horder : contention.order.zip outcomes =
      (contention.grants.zip outcomes).map (Prod.map Prod.snd id) := by
    rw [order, ← List.zip_map_left]
  have hthreads : ∀ answered ∈ contention.grants.zip outcomes, answered.1.1 < todos.length :=
    fun answered hanswered => h.threads_lt _ (List.of_mem_zip hanswered).1
  simp only [h.answers_eq hfinished, granted_zip_outcomesOf h.length_eq, horder, List.countP_map,
    ← List.map_flatMap]
  exact countP_flatMap_filter _ hthreads

/-! ### All together -/

theorem mem_order_of_mem_granted (h : operation ∈ contention.granted thread) :
    operation ∈ contention.order := by
  obtain ⟨grant, hgrant, rfl⟩ := List.mem_map.1 h
  exact List.mem_map_of_mem (List.mem_of_mem_filter hgrant)

theorem Linear.mem_todos_of_mem_order (h : contention.Linear todos outcomes store)
    (hmem : operation ∈ contention.order) : ∃ todo ∈ todos, operation ∈ todo := by
  obtain ⟨⟨thread, operation⟩, hgrant, rfl⟩ := List.mem_map.1 hmem
  obtain ⟨caller, -, hserved⟩ := h.served_of (List.getElem?_eq_getElem (h.threads_lt _ hgrant))
  have hgranted : operation ∈ contention.granted thread :=
    List.mem_map.2 ⟨_, List.mem_filter.2 ⟨hgrant, decide_eq_true rfl⟩, rfl⟩
  exact ⟨_, List.getElem_mem _, hserved.granted_prefix.subset hgranted⟩

theorem Linear.mem_order_of_mem_todos (h : contention.Linear todos outcomes store)
    (hfinished : contention.Finished) (htodo : todo ∈ todos) (hmem : operation ∈ todo) :
    operation ∈ contention.order := by
  obtain ⟨thread, hthread⟩ := List.mem_iff_getElem?.1 htodo
  obtain ⟨caller, hcaller, hserved⟩ := h.served_of hthread
  obtain ⟨hgranted, -⟩ := hserved.eq_of_todo (hfinished caller (List.mem_of_getElem? hcaller))
  exact mem_order_of_mem_granted (hgranted ▸ hmem)

/-- The answers to the later ones of a sequence of operations count the entries that these make. -/
theorem countP_creates_drop {buckets : Nat} (hbuckets : 0 < buckets) (before after : List Operation)
    (key : String) :
    (after.zip (((empty buckets hbuckets).performAll (before ++ after)).1.drop before.length)).countP
        (Contents.creates key) =
      (Contents.empty.performAll before).2.creations after key := by
  obtain ⟨-, hcontents, hsound⟩ := (sound_empty hbuckets).performAll before
  obtain ⟨hanswers, -⟩ := hsound.performAll after
  have hlength := length_performAll (empty buckets hbuckets) before
  rw [performAll_append, List.drop_left' hlength, hanswers, hcontents, contents_empty]
  rfl

theorem Reachable.of_moves {buckets : Nat} {before after : Contention}
    (h : Reachable buckets capacity todos before) (moves : List Move)
    (hmoves : moves.foldlM act before = some after) : Reachable buckets capacity todos after := by
  induction moves generalizing before with
  | nil =>
    cases hmoves
    exact h
  | cons move moves ih =>
    obtain ⟨next, hnext, hrest⟩ := Option.bind_eq_some_iff.1 hmoves
    exact ih (h.step hnext) hrest

/-- In every state that threads can come to with a store that they share, they have the answers that they
get when their operations are done one after another, in the order of the grants. The capacity of a ring is
a machine word. -/
theorem Reachable.serial {buckets : Nat} (hbuckets : 0 < buckets) (hword : capacity < UInt64.size)
    (h : Reachable buckets capacity todos contention) :
    contention.Serial todos ((empty buckets hbuckets).performAll contention.order).1
      ((empty buckets hbuckets).performAll contention.order).2 := by
  obtain ⟨-, hlinear⟩ := h.linear hbuckets hword
  obtain ⟨hanswers, hcontents, -⟩ := (sound_empty hbuckets).performAll contention.order
  rw [contents_empty] at hanswers hcontents
  have hsince : ∀ (key : String) (before after : List Operation), contention.order = before ++ after →
      (Contents.empty.performAll before).2 key = none → .delete key ∉ after →
      (∃ value, .insert key value ∈ after) →
      (after.zip (((empty buckets hbuckets).performAll contention.order).1.drop before.length)).countP
        (Contents.creates key) = 1 := by
    intro key before after horder habsent hdelete hinsert
    rw [horder, countP_creates_drop]
    exact Contents.creations_of_absent habsent hdelete hinsert
  constructor
  · intro thread todo htodo
    obtain ⟨caller, hcaller, hserved⟩ := hlinear.served_of htodo
    exact ⟨caller, hcaller, hserved.todo_eq, hserved.granted_prefix, hserved.outcomes_prefix⟩
  · intro hfinished
    have hchains := hlinear.chains_eq hfinished
    refine ⟨fun thread todo htodo => ?_, hchains, contents_of_chains hchains⟩
    obtain ⟨caller, hcaller, hserved⟩ := hlinear.served_of htodo
    obtain ⟨hgranted, houtcomes⟩ :=
      hserved.eq_of_todo (hfinished caller (List.mem_of_getElem? hcaller))
    exact ⟨hgranted, by rw [hcaller, houtcomes]; rfl⟩
  · intro hfinished
    rw [contents_of_chains (hlinear.chains_eq hfinished), hcontents, hanswers]
    exact Contents.performAll_eq_foldl_credit _ _
  · exact hsince
  · intro key hfinished hdelete hinsert
    obtain ⟨todo, htodo, value, hvalue⟩ := hinsert
    rw [hlinear.countP_answers hfinished]
    refine hsince key [] contention.order rfl rfl (fun hmem => ?_) ⟨value, ?_⟩
    · obtain ⟨todo, htodo, hmem⟩ := hlinear.mem_todos_of_mem_order hmem
      exact hdelete todo htodo hmem
    · exact hlinear.mem_order_of_mem_todos hfinished htodo hvalue

/-- Two threads insert one key at the same time. The second waits until the first has left, and then finds
the entry of the first. -/
theorem Reachable.serial_contended :
    ∃ contention, Reachable 1 1 [[.insert "k" "1"], [.insert "k" "2", .search "k"]] contention ∧
      contention.Finished ∧ contention.answers [[.insert "k" "1"], [.insert "k" "2", .search "k"]] =
        [(.insert "k" "1", .insert true), (.insert "k" "2", .insert false),
          (.search "k", .search (some "1"))] ∧
      contention.Serial [[.insert "k" "1"], [.insert "k" "2", .search "k"]]
        ((empty 1 Nat.one_pos).performAll contention.order).1
        ((empty 1 Nat.one_pos).performAll contention.order).2 := by
  have h : Reachable 1 1 [[.insert "k" "1"], [.insert "k" "2", .search "k"]] _ :=
    Reachable.of_moves .start [.enter 0, .enter 1, .look 0, .change 0, .leave 0, .resume 1, .look 1,
      .change 1, .leave 1, .enter 1, .look 1, .change 1, .leave 1] rfl
  refine ⟨_, h, fun caller hcaller => ?_, rfl, Reachable.serial Nat.one_pos (by decide) h⟩
  rcases List.mem_pair.1 hcaller with rfl | rfl <;> rfl

end Contention

end LineStore.Store
