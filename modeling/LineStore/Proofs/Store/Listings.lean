import LineStore.Proofs.Store.Bucketwise
import LineStore.Proofs.Store.Census

/-!
The entries of a bucket as a dump lists them, and what an operation makes of this list.
-/

namespace LineStore.Store

/-- What an operation makes of the entries of the bucket of its key. A new entry comes first, an entry whose
value is replaced stays where it is, and where one is taken out the others stay in order. -/
def Operation.rearrange (entries : List Entry) : Operation → List Entry
  | insert key value =>
    if ∃ entry ∈ entries, entry.key = key then entries else { key, value } :: entries
  | search _ => entries
  | update key value =>
    entries.map fun entry => if entry.key = key then { entry with value } else entry
  | delete key => entries.filter (·.key ≠ key)

/-- The entries that a dump lists for a bucket. -/
def Dump.entriesAt (dump : Dump) (index : Nat) : List Entry :=
  ((dump.buckets.find? (·.index = index)).map BucketDump.entries).getD []

/-- The dump that lists these entries for each of a number of buckets. -/
def Dump.ofEntries (count : Nat) (entriesAt : Nat → List Entry) : Dump :=
  let buckets := (List.range count).filterMap fun i =>
    if entriesAt i = [] then none else some { index := i, entries := entriesAt i }
  { total := (buckets.map fun bucket => bucket.entries.length).foldr (· + ·) 0, buckets }

/-! ### Buckets -/

namespace Chain

variable {chain : Chain} {key : String}

theorem Sound.entries_erase (h : chain.Sound) (key : String) :
    (chain.erase key).entries = chain.entries.filter (·.key ≠ key) := by
  have hdistinct := h.distinct
  simp only [Chain.erase]
  generalize chain.entries = entries at hdistinct
  induction entries with
  | nil => rfl
  | cons entry entries ih =>
    obtain ⟨hfresh, hrest⟩ := List.nodup_cons.1 hdistinct
    by_cases hentry : entry.key = key
    · have hothers : entries.filter (·.key ≠ key) = entries := by
        refine List.filter_eq_self.2 fun other hother => decide_eq_true fun hkey => hfresh ?_
        rw [hentry, ← hkey]
        exact List.mem_map_of_mem hother
      simp only [List.eraseP_cons, List.filter_cons, hentry, decide_true, cond_true, ne_eq, not_true,
        decide_false, Bool.false_eq_true, ↓reduceIte]
      exact hothers.symm
    · simp only [List.eraseP_cons, List.filter_cons, hentry, decide_false, cond_false, ne_eq,
        not_false_eq_true, decide_true, ↓reduceIte]
      exact congrArg (entry :: ·) (ih hrest)

theorem exists_key_iff : (∃ entry ∈ chain.entries, entry.key = key) ↔ (chain.find? key).isSome = true := by
  rw [← contains_iff, contains_iff_find?, Option.isSome_iff_exists]

theorem Sound.entries_perform (h : chain.Sound) (operation : Operation) :
    (chain.perform operation).2.entries = operation.rearrange chain.entries := by
  cases operation with
  | search key => rfl
  | insert key value =>
    simp only [perform, Operation.key, apply, Operation.rearrange, exists_key_iff]
    cases chain.find? key <;> rfl
  | update key value =>
    simp only [perform, Operation.key, apply, Operation.rearrange]
    cases hfind : chain.find? key with
    | none =>
      have hkeep : ∀ entry ∈ chain.entries,
          (if entry.key = key then { entry with value } else entry) = entry := fun entry hentry =>
        if_neg (find?_eq_none_iff.1 hfind entry hentry)
      rw [List.map_congr_left hkeep, List.map_id']
    | some old => rfl
  | delete key =>
    simp only [perform, Operation.key, apply, Operation.rearrange]
    cases hfind : chain.find? key with
    | none =>
      refine (List.filter_eq_self.2 fun entry hentry => ?_).symm
      exact decide_eq_true (find?_eq_none_iff.1 hfind entry hentry)
    | some old => exact h.entries_erase key

end Chain

/-! ### Dumps -/

variable {store : Store}

/-- The buckets of a dump are those that have an entry, in the order of their places. -/
theorem index_lt_dump (store : Store) :
    (store.dump.1.buckets.map BucketDump.index).Pairwise (· < ·) := by
  have hplaces : (store.chains.toList.zipIdx.map Prod.snd).Pairwise (· < ·) := by
    rw [List.zipIdx_map_snd]
    exact List.pairwise_lt_range'
  rw [List.pairwise_map] at hplaces
  rw [List.pairwise_map, dump, occupiedBuckets, List.pairwise_filterMap]
  refine hplaces.imp fun {first second} hlt bucket hbucket later hlater => ?_
  split at hbucket
  · cases hbucket
  · split at hlater
    · cases hlater
    · cases hbucket
      cases hlater
      exact hlt

theorem Sound.mem_index_dump_iff (h : store.Sound) {i : Nat} :
    i ∈ store.dump.1.buckets.map BucketDump.index ↔
      ∃ key value, store.contents key = some value ∧ bucketOf key store.bucketCount = i := by
  rw [List.mem_map]
  constructor
  · rintro ⟨bucket, hbucket, rfl⟩
    obtain ⟨i, chain, hi, hcount, rfl⟩ := mem_occupiedBuckets.1 hbucket
    rw [h.count_eq hi] at hcount
    obtain ⟨entry, hentry⟩ := List.exists_mem_of_length_pos (Nat.pos_of_ne_zero hcount)
    refine ⟨entry.key, entry.value, h.contents_eq_some_iff.2 ?_, h.placed i chain hi entry hentry⟩
    exact mem_entries.2 ⟨i, chain, hi, hentry⟩
  · rintro ⟨key, value, hvalue, rfl⟩
    refine (h.listed_iff (chainOf_eq_some store key)).2 fun hnone => ?_
    have hentry := (h.chainOf key).find?_eq_some_iff.1 hvalue
    rw [hnone] at hentry
    cases hentry

theorem Sound.entriesAt_dump (h : store.Sound) (i : Nat) :
    store.dump.1.entriesAt i = (store.chains[i]?.map Chain.entries).getD [] := by
  rw [Dump.entriesAt]
  cases hfind : store.dump.1.buckets.find? (·.index = i) with
  | some bucket =>
    have hindex : bucket.index = i := by simpa using List.find?_some hfind
    obtain ⟨j, chain, hj, -, rfl⟩ := mem_occupiedBuckets.1 (List.mem_of_find?_eq_some hfind)
    rw [← hindex, hj]
    rfl
  | none =>
    cases hi : store.chains[i]? with
    | none => rfl
    | some chain =>
      have hempty : chain.entries = [] := by
        by_contra hne
        obtain ⟨bucket, hbucket, hindex⟩ := (h.listed_iff hi).2 hne
        simpa [hindex] using List.find?_eq_none.1 hfind bucket hbucket
      rw [Option.map_some, hempty]
      rfl

theorem Sound.entriesAt_bucketOf (h : store.Sound) (key : String) :
    store.dump.1.entriesAt (bucketOf key store.bucketCount) = (store.chainOf key).entries := by
  rw [h.entriesAt_dump, chainOf_eq_some, Option.map_some, Option.getD_some]

/-- The entries that a dump lists for each bucket say all. -/
theorem Sound.dump_eq (h : store.Sound) :
    store.dump.1 = .ofEntries store.bucketCount store.dump.1.entriesAt := by
  have hbuckets : store.occupiedBuckets = (List.range store.bucketCount).filterMap fun i =>
      if store.dump.1.entriesAt i = [] then none
      else some { index := i, entries := store.dump.1.entriesAt i } := by
    have hrange : List.range store.bucketCount = store.chains.toList.zipIdx.map Prod.snd := by
      rw [List.zipIdx_map_snd, List.range_eq_range', Array.length_toList]
      rfl
    rw [hrange, List.filterMap_map, occupiedBuckets]
    refine List.filterMap_congr fun numbered hnumbered => ?_
    rw [List.mem_zipIdx_iff_getElem?, Array.getElem?_toList] at hnumbered
    rw [Function.comp_apply, h.entriesAt_dump, hnumbered, Option.map_some, Option.getD_some,
      h.count_eq hnumbered]
    simp only [List.length_eq_zero_iff]
  rw [Dump.ofEntries, ← hbuckets]
  rfl

/-- An operation rearranges the entries of one bucket and touches no other. -/
theorem Sound.entriesAt_perform (h : store.Sound) (operation : Operation) (i : Nat) :
    (store.perform operation).2.dump.1.entriesAt i =
      if bucketOf operation.key store.bucketCount = i then
        operation.rearrange (store.dump.1.entriesAt i)
      else store.dump.1.entriesAt i := by
  rw [(h.perform operation).2.2.entriesAt_dump, h.entriesAt_dump, chains_perform]
  split
  · rename_i hbucket
    rw [← hbucket, chainOf_eq_some, Option.map_some, Option.map_some, Option.getD_some, Option.getD_some,
      (h.chainOf operation.key).entries_perform]
  · rfl

end LineStore.Store
