import LineStore.Proofs.Store.Refinement
import LineStore.Store.Dump
import Mathlib.Data.Finset.Card

/-!
How many entries a store has. The counts of its buckets, the entries that a dump lists and the keys that
have a value come to one number.
-/

namespace LineStore.Store

theorem Chain.Sound.find?_eq_some_iff {chain : Chain} (h : chain.Sound) {key value : String} :
    chain.find? key = some value ↔ { key, value } ∈ chain.entries := by
  constructor
  · intro hfind
    obtain ⟨entry, hentry, rfl⟩ := Option.map_eq_some_iff.1 hfind
    have hkey : entry.key = key := by simpa using List.find?_some hentry
    rw [← hkey]
    exact List.mem_of_find?_eq_some hentry
  · intro hmem
    cases hfind : chain.entries.find? (·.key = key) with
    | none => simpa using List.find?_eq_none.1 hfind _ hmem
    | some entry =>
      have hkey : entry.key = key := by simpa using List.find?_some hfind
      have hsame : entry = { key, value } :=
        List.inj_on_of_nodup_map h.distinct (List.mem_of_find?_eq_some hfind) hmem hkey
      rw [Chain.find?, hfind, hsame]
      rfl

variable {store : Store}

/-! ### Entries -/

/-- All entries, bucket after bucket. -/
def entries (store : Store) : List Entry :=
  store.chains.toList.flatMap Chain.entries

theorem mem_entries {entry : Entry} :
    entry ∈ store.entries ↔
      ∃ (i : Nat) (chain : Chain), store.chains[i]? = some chain ∧ entry ∈ chain.entries := by
  simp only [entries, List.mem_flatMap, Array.mem_toList_iff, Array.mem_iff_getElem?]
  constructor
  · rintro ⟨chain, ⟨i, hi⟩, hentry⟩
    exact ⟨i, chain, hi, hentry⟩
  · rintro ⟨i, chain, hi, hentry⟩
    exact ⟨chain, ⟨i, hi⟩, hentry⟩

/-- Two buckets have no key in common, for a key tells its bucket. -/
theorem Sound.nodup_keys (h : store.Sound) : (store.entries.map Entry.key).Nodup := by
  rw [entries, List.map_flatMap, List.nodup_flatMap]
  constructor
  · intro chain hchain
    obtain ⟨i, hi⟩ := Array.mem_iff_getElem?.1 (Array.mem_toList_iff.1 hchain)
    exact (h.chains i chain hi).distinct
  · rw [List.pairwise_iff_getElem]
    intro i j hi hj hlt key hkeyi hkeyj
    obtain ⟨first, hfirst, hkey⟩ := List.mem_map.1 hkeyi
    obtain ⟨second, hsecond, hkey'⟩ := List.mem_map.1 hkeyj
    have hplacei := h.placed i _ (by simp) first hfirst
    have hplacej := h.placed j _ (by simp) second hsecond
    rw [hkey] at hplacei
    rw [hkey'] at hplacej
    omega

/-- Just the entries of a store are found in it. -/
theorem Sound.contents_eq_some_iff (h : store.Sound) {key value : String} :
    store.contents key = some value ↔ { key, value } ∈ store.entries := by
  rw [contents, search, (h.chainOf key).find?_eq_some_iff, mem_entries]
  constructor
  · intro hentry
    exact ⟨_, _, chainOf_eq_some store key, hentry⟩
  · rintro ⟨i, chain, hi, hentry⟩
    have hplace : bucketOf key store.bucketCount = i := h.placed i chain hi _ hentry
    rw [← hplace, chainOf_eq_some, Option.some_inj] at hi
    rwa [hi]

/-- There is at most one entry for a key. -/
theorem Sound.filter_key_eq (h : store.Sound) (key : String) :
    store.entries.filter (·.key = key) =
      ((store.contents key).map fun value => { key, value : Entry }).toList := by
  cases hvalue : store.contents key with
  | none =>
    refine List.filter_eq_nil_iff.2 fun entry hentry hkey => ?_
    obtain rfl : entry.key = key := by simpa using hkey
    rw [h.contents_eq_some_iff.2 hentry] at hvalue
    cases hvalue
  | some value =>
    have hmem (entry : Entry) :
        entry ∈ store.entries.filter (·.key = key) ↔ entry ∈ [{ key, value : Entry }] := by
      rw [List.mem_filter, decide_eq_true_eq, List.mem_singleton]
      constructor
      · rintro ⟨hentry, rfl⟩
        rw [h.contents_eq_some_iff.2 hentry] at hvalue
        cases hvalue
        rfl
      · rintro rfl
        exact ⟨h.contents_eq_some_iff.1 hvalue, rfl⟩
    have hnodup := (List.Nodup.of_map _ h.nodup_keys).filter (·.key = key)
    exact List.perm_singleton.1 ((List.perm_ext_iff_of_nodup hnodup (List.nodup_singleton _)).2 hmem)

/-! ### Keys -/

/-- The keys that have an entry. -/
def keys (store : Store) : Finset String :=
  (store.entries.map Entry.key).toFinset

theorem Sound.mem_keys_iff (h : store.Sound) {key : String} :
    key ∈ store.keys ↔ ∃ value, store.contents key = some value := by
  simp only [keys, List.mem_toFinset, List.mem_map, h.contents_eq_some_iff]
  constructor
  · rintro ⟨⟨key, value⟩, hentry, rfl⟩
    exact ⟨value, hentry⟩
  · rintro ⟨value, hentry⟩
    exact ⟨_, hentry, rfl⟩

theorem Sound.card_keys (h : store.Sound) : store.keys.card = store.entries.length := by
  rw [keys, List.toFinset_card_of_nodup h.nodup_keys, List.length_map]

/-! ### Counts -/

theorem Sound.count_eq (h : store.Sound) {i : Nat} {chain : Chain}
    (hi : store.chains[i]? = some chain) : chain.count = chain.entries.length :=
  (h.chains i chain hi).counted

theorem Sound.size_eq_length (h : store.Sound) : store.size = store.entries.length := by
  have hcounts : store.chains.toList.map Chain.count =
      store.chains.toList.map fun chain => chain.entries.length := by
    refine List.map_congr_left fun chain hchain => ?_
    obtain ⟨i, hi⟩ := Array.mem_iff_getElem?.1 (Array.mem_toList_iff.1 hchain)
    exact h.count_eq hi
  rw [size, hcounts, entries, List.length_flatMap]
  rfl

theorem Sound.size_eq_card (h : store.Sound) : store.size = store.keys.card := by
  rw [h.size_eq_length, h.card_keys]

theorem Sound.isEmpty_iff (h : store.Sound) :
    store.isEmpty = true ↔ ∀ key, store.contents key = none := by
  rw [isEmpty, decide_eq_true_eq, h.size_eq_card, Finset.card_eq_zero, Finset.eq_empty_iff_forall_notMem]
  simp only [h.mem_keys_iff, not_exists, Option.eq_none_iff_forall_ne_some, ne_eq]

/-! ### Dumps -/

theorem mem_occupiedBuckets {bucket : BucketDump} :
    bucket ∈ store.occupiedBuckets ↔ ∃ i chain, store.chains[i]? = some chain ∧ chain.count ≠ 0 ∧
      bucket = { index := i, entries := chain.entries } := by
  simp only [occupiedBuckets, List.mem_filterMap, Prod.exists, List.mem_zipIdx_iff_getElem?,
    Array.getElem?_toList]
  constructor
  · rintro ⟨chain, i, hi, hbucket⟩
    split at hbucket
    · cases hbucket
    · rename_i hcount
      exact ⟨i, chain, hi, hcount, (Option.some.inj hbucket).symm⟩
  · rintro ⟨i, chain, hi, hcount, rfl⟩
    exact ⟨chain, i, hi, if_neg hcount⟩

/-- A dump passes over just the buckets that have no entry. -/
theorem Sound.listed_iff (h : store.Sound) {i : Nat} {chain : Chain}
    (hi : store.chains[i]? = some chain) :
    (∃ bucket ∈ store.dump.1.buckets, bucket.index = i) ↔ chain.entries ≠ [] := by
  have hcount := h.count_eq hi
  constructor
  · rintro ⟨bucket, hbucket, rfl⟩
    obtain ⟨j, other, hj, hother, rfl⟩ := mem_occupiedBuckets.1 hbucket
    cases hi.symm.trans hj
    rintro hnil
    rw [hnil] at hcount
    exact hother hcount
  · intro hne
    refine ⟨_, mem_occupiedBuckets.2 ⟨i, chain, hi, ?_, rfl⟩, rfl⟩
    rw [hcount]
    exact fun hzero => hne (List.eq_nil_of_length_eq_zero hzero)

/-- Where those that are left out weigh nothing, the weights of the rest make up the whole. -/
theorem foldr_add_filterMap {α β : Type} {f : α → Option β} {weight : α → Nat} {size : β → Nat}
    {l : List α} (h : ∀ a ∈ l, weight a = ((f a).map size).getD 0) :
    ((l.filterMap f).map size).foldr (· + ·) 0 = (l.map weight).foldr (· + ·) 0 := by
  induction l with
  | nil => rfl
  | cons a l ih =>
    have ha := h a List.mem_cons_self
    have hrest := ih fun b hb => h b (List.mem_cons_of_mem _ hb)
    cases hfa : f a with
    | none =>
      rw [hfa] at ha
      rw [List.filterMap_cons_none hfa, hrest, List.map_cons, List.foldr_cons, ha]
      exact (Nat.zero_add _).symm
    | some b =>
      rw [hfa] at ha
      rw [List.filterMap_cons_some hfa, List.map_cons, List.map_cons, List.foldr_cons,
        List.foldr_cons, hrest, ha]
      rfl

/-- The buckets that are passed over would add nothing to the total. -/
theorem Sound.total_dump (h : store.Sound) : store.dump.1.total = store.size := by
  have hcounts : (store.chains.toList.zipIdx.map fun numbered => numbered.1.count) =
      store.chains.toList.map Chain.count := by
    rw [← List.zipIdx_map_fst 0 store.chains.toList, List.map_map, List.zipIdx_map_fst]
    rfl
  refine (foldr_add_filterMap fun numbered hnumbered => ?_).trans
    (congrArg (List.foldr (· + ·) 0) hcounts)
  have hcount : numbered.1.count = numbered.1.entries.length := by
    rw [List.mem_zipIdx_iff_getElem?, Array.getElem?_toList] at hnumbered
    exact h.count_eq hnumbered
  split
  · assumption
  · exact hcount

end LineStore.Store
