import LineStore.Proofs.Store.Chains
import LineStore.Store.Contents

/-!
A store answers as its contents do, however its keys are spread over the buckets.
-/

namespace LineStore.Store

variable {store : Store}

/-- Every bucket is sound, and holds only the entries that belong to it. -/
structure Sound (store : Store) : Prop where
  chains : ∀ (i : Nat) (chain : Chain), store.chains[i]? = some chain → chain.Sound
  placed : ∀ (i : Nat) (chain : Chain), store.chains[i]? = some chain → ∀ entry ∈ chain.entries,
    bucketOf entry.key store.bucketCount = i

theorem chainOf_eq_some (store : Store) (key : String) :
    store.chains[bucketOf key store.bucketCount]? = some (store.chainOf key) :=
  Array.getElem?_eq_getElem (store.home key).isLt

theorem contents_empty {count : Nat} (h : 0 < count) : (empty count h).contents = Contents.empty := by
  funext key
  simp only [contents, search, chainOf, empty, Fin.getElem_fin, Array.getElem_replicate, Chain.find?,
    List.find?_nil, Option.map_none, Contents.empty]

theorem sound_empty {count : Nat} (h : 0 < count) : (empty count h).Sound := by
  have hchain : ∀ (i : Nat) (chain : Chain), (empty count h).chains[i]? = some chain → chain = {} := by
    intro i chain hi
    rw [empty, Array.getElem?_replicate] at hi
    split at hi
    · exact (Option.some.inj hi).symm
    · cases hi
  constructor
  · intro i chain hi
    rw [hchain i chain hi]
    exact Chain.sound_empty
  · intro i chain hi entry hentry
    rw [hchain i chain hi] at hentry
    cases hentry

/-! ### One bucket in the place of another -/

theorem bucketCount_setChain (store : Store) (key : String) (chain : Chain) :
    (store.setChain key chain).bucketCount = store.bucketCount :=
  Array.size_set (store.home key).isLt

theorem getElem?_setChain (store : Store) (key : String) (chain : Chain) (i : Nat) :
    (store.setChain key chain).chains[i]? =
      if bucketOf key store.bucketCount = i then some chain else store.chains[i]? :=
  Array.getElem?_set (store.home key).isLt

theorem chainOf_setChain (key k : String) (chain : Chain) :
    (store.setChain key chain).chainOf k =
      if bucketOf key store.bucketCount = bucketOf k store.bucketCount then chain
      else store.chainOf k := by
  have h := chainOf_eq_some (store.setChain key chain) k
  rw [bucketCount_setChain, getElem?_setChain, chainOf_eq_some] at h
  split at h
  · rename_i hbucket
    rw [if_pos hbucket]
    exact (Option.some.inj h).symm
  · rename_i hbucket
    rw [if_neg hbucket]
    exact (Option.some.inj h).symm

/-- A bucket that differs from the one of `key` in the value of `key` alone makes the contents differ in
it alone. -/
theorem contents_setChain {key : String} {chain : Chain} {value? : Option String}
    (h : ∀ k, chain.find? k = if k = key then value? else (store.chainOf key).find? k) :
    (store.setChain key chain).contents = store.contents.set key value? := by
  funext k
  rw [contents, search, chainOf_setChain]
  split
  · rename_i hbucket
    have hchain : store.chainOf key = store.chainOf k := by
      have hkey := chainOf_eq_some store key
      rw [hbucket, chainOf_eq_some] at hkey
      exact (Option.some.inj hkey).symm
    rw [h, Contents.set, contents, search, hchain]
  · rename_i hbucket
    have hk : k ≠ key := fun heq => hbucket (heq ▸ rfl)
    rw [Contents.set, if_neg hk]
    rfl

theorem Sound.chainOf (h : store.Sound) (key : String) : (store.chainOf key).Sound :=
  h.chains _ _ (chainOf_eq_some store key)

theorem Sound.placed_chainOf (h : store.Sound) {key : String} :
    ∀ entry ∈ (store.chainOf key).entries,
      bucketOf entry.key store.bucketCount = bucketOf key store.bucketCount :=
  h.placed _ _ (chainOf_eq_some store key)

theorem Sound.setChain (h : store.Sound) {key : String} {chain : Chain} (hchain : chain.Sound)
    (hplaced : ∀ entry ∈ chain.entries,
      bucketOf entry.key store.bucketCount = bucketOf key store.bucketCount) :
    (store.setChain key chain).Sound := by
  constructor
  · intro i other hi
    rw [getElem?_setChain] at hi
    split at hi
    · cases hi
      exact hchain
    · exact h.chains i other hi
  · intro i other hi entry hentry
    rw [getElem?_setChain] at hi
    rw [bucketCount_setChain]
    split at hi
    · rename_i hbucket
      cases hi
      rw [← hbucket]
      exact hplaced entry hentry
    · exact h.placed i other hi entry hentry

/-! ### Operations -/

theorem contents_of_contains {key : String} (h : (store.chainOf key).contains key) :
    ∃ value, store.contents key = some value :=
  Chain.contains_iff_find?.1 h

theorem contents_of_not_contains {key : String} (h : ¬ (store.chainOf key).contains key) :
    store.contents key = none :=
  Option.eq_none_iff_forall_ne_some.2 fun value hvalue => h (Chain.contains_iff_find?.2 ⟨value, hvalue⟩)

/-- An operation answers what the contents of a store say, and does to them what it is meant to. -/
theorem Sound.perform (h : store.Sound) (operation : Operation) :
    (store.perform operation).1 = (store.contents.perform operation).1 ∧
      (store.perform operation).2.contents = (store.contents.perform operation).2 ∧
      (store.perform operation).2.Sound := by
  have hchain := h.chainOf operation.key
  cases operation with
  | search key => exact ⟨rfl, rfl, h⟩
  | insert key value =>
    by_cases hkey : (store.chainOf key).contains key
    · obtain ⟨old, hold⟩ := contents_of_contains hkey
      simp only [Store.perform, Store.insert, Contents.perform, hkey, hold, ↓reduceIte]
      exact ⟨trivial, trivial, h⟩
    · have hnone := contents_of_not_contains hkey
      simp only [Store.perform, Store.insert, Contents.perform, hkey, hnone, Bool.false_eq_true,
        ↓reduceIte]
      refine ⟨trivial, contents_setChain (Chain.find?_push), h.setChain (hchain.push hkey) ?_⟩
      intro entry hentry
      rcases List.mem_cons.1 hentry with rfl | hentry
      · rfl
      · exact h.placed_chainOf entry hentry
  | update key value =>
    by_cases hkey : (store.chainOf key).contains key
    · obtain ⟨old, hold⟩ := contents_of_contains hkey
      simp only [Store.perform, Store.update, Contents.perform, hkey, hold, ↓reduceIte]
      refine ⟨trivial, contents_setChain (Chain.find?_replace hkey), h.setChain hchain.replace ?_⟩
      intro entry hentry
      obtain ⟨old, hmem, rfl⟩ := List.mem_map.1 hentry
      have hplaced := h.placed_chainOf old hmem
      split <;> exact hplaced
    · have hnone := contents_of_not_contains hkey
      simp only [Store.perform, Store.update, Contents.perform, hkey, hnone, Bool.false_eq_true,
        ↓reduceIte]
      exact ⟨trivial, trivial, h⟩
  | delete key =>
    by_cases hkey : (store.chainOf key).contains key
    · obtain ⟨old, hold⟩ := contents_of_contains hkey
      simp only [Store.perform, Store.delete, Contents.perform, hkey, hold, ↓reduceIte]
      refine ⟨trivial, contents_setChain (Chain.find?_erase hchain.distinct),
        h.setChain (hchain.erase hkey) ?_⟩
      intro entry hentry
      exact h.placed_chainOf entry (List.mem_of_mem_eraseP hentry)
    · have hnone := contents_of_not_contains hkey
      simp only [Store.perform, Store.delete, Contents.perform, hkey, hnone, Bool.false_eq_true,
        ↓reduceIte]
      exact ⟨trivial, trivial, h⟩

end LineStore.Store
