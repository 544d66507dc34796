import LineStore.Proofs.Store.Bucketwise
import LineStore.Proofs.Store.Census

/-!
What a store keeps about itself, through all operations and dumps: the counts of its buckets, and the total
of the last dump. A dump trusts the counts and never looks whether a bucket is empty.
-/

namespace LineStore.Store

/-- What a new store can come to, with the last dump that was taken of it. -/
inductive Reachable (buckets : Nat) : Option Dump → Store → Prop where
  | opened {locks : Lock.Options} {store : Store} :
      open? buckets locks = .ok store → Reachable buckets none store
  | perform {last? : Option Dump} {store : Store} (operation : Operation) :
      Reachable buckets last? store → Reachable buckets last? (store.perform operation).2
  | dump {last? : Option Dump} {store : Store} :
      Reachable buckets last? store → Reachable buckets (some store.dump.1) store.dump.2

/-- What a store keeps about itself is true: where its entries are, how many there are in each bucket and in
all of them, and how many the last dump listed. -/
structure Kept (buckets : Nat) (last? : Option Dump) (store : Store) : Prop where
  bucketCount_eq : store.bucketCount = buckets
  placed : ∀ (i : Nat) (chain : Chain), store.chains[i]? = some chain → ∀ entry ∈ chain.entries,
    bucketOf entry.key buckets = i
  distinct : (store.entries.map Entry.key).Nodup
  counted : ∀ (i : Nat) (chain : Chain), store.chains[i]? = some chain →
    chain.count = chain.entries.length
  /-- Where an entry is taken out, the count is not zero. -/
  erasable : ∀ key, (store.chainOf key).contains key → 0 < (store.chainOf key).count
  listed : ∀ (i : Nat) (chain : Chain), store.chains[i]? = some chain →
    ((∃ bucket ∈ store.dump.1.buckets, bucket.index = i) ↔ chain.entries ≠ [])
  total_eq : store.dump.1.total = store.size
  size_eq : ∃ keys : Finset String, (∀ key, key ∈ keys ↔ ∃ value, store.search key = some value) ∧
    store.size = keys.card
  lastTotal_eq : store.lastTotal = (last?.map Dump.total).getD 0
  unmoved : store.dump.2.chains = store.chains

variable {buckets : Nat} {last? : Option Dump} {store : Store}

theorem eq_empty_of_open? {locks : Lock.Options} (h : open? buckets locks = .ok store) :
    ∃ hbuckets : 0 < buckets, store = empty buckets hbuckets := by
  rw [open?] at h
  split at h
  · rename_i hbuckets
    refine ⟨hbuckets, ?_⟩
    split at h
    · cases h
    · cases hcheck : locks.check with
      | error fault =>
        rw [hcheck] at h
        cases h
      | ok _ =>
        rw [hcheck] at h
        exact (Except.ok.inj h).symm
  · cases h

theorem Sound.dump (h : store.Sound) : store.dump.2.Sound :=
  ⟨h.chains, h.placed⟩

/-! ### Every state -/

theorem Reachable.sound (h : Reachable buckets last? store) :
    store.Sound ∧ store.bucketCount = buckets ∧
      store.lastTotal = (last?.map Dump.total).getD 0 := by
  induction h with
  | opened hopen =>
    obtain ⟨hbuckets, rfl⟩ := eq_empty_of_open? hopen
    exact ⟨sound_empty hbuckets, Array.size_replicate, rfl⟩
  | perform operation _ ih =>
    obtain ⟨hsound, hcount, htotal⟩ := ih
    rw [bucketCount_perform, lastTotal_perform]
    exact ⟨(hsound.perform operation).2.2, hcount, htotal⟩
  | dump _ ih => exact ⟨ih.1.dump, ih.2.1, rfl⟩

/-- Through any operations and dumps, every entry stays in the bucket of its key, no key has two entries,
and the counts are right. So the size by the counts, the total of a dump and the number of keys are one
number, and the total of the last dump is what it was when that was taken. -/
theorem Reachable.kept (h : Reachable buckets last? store) : store.Kept buckets last? := by
  obtain ⟨hsound, hcount, htotal⟩ := h.sound
  exact
    { bucketCount_eq := hcount
      placed := hcount ▸ hsound.placed
      distinct := hsound.nodup_keys
      counted := fun i chain hi => hsound.count_eq hi
      erasable := fun key hkey => by
        obtain ⟨entry, hentry, -⟩ := Chain.contains_iff.1 hkey
        rw [(hsound.chainOf key).counted]
        exact List.length_pos_of_mem hentry
      listed := fun i chain hi => hsound.listed_iff hi
      total_eq := hsound.total_dump
      size_eq := ⟨store.keys, fun key => hsound.mem_keys_iff, hsound.size_eq_card⟩
      lastTotal_eq := htotal
      unmoved := rfl }

/-- A store with one bucket, dumped while it has two entries and then emptied. -/
theorem Reachable.kept_emptied :
    ∃ (last : Dump) (store : Store), Reachable 1 (some last) store ∧ store.Kept 1 (some last) ∧
      last.total = 2 ∧ store.lastTotal = 2 ∧ store.size = 0 := by
  have hdumped : Reachable 1 _ _ :=
    .dump (.perform (.insert "b" "2") (.perform (.insert "a" "1")
      (.opened (show open? 1 { ringCapacity := 1 } = .ok _ from rfl))))
  have h := hdumped.perform (.delete "a") |>.perform (.delete "b")
  have hkept := h.kept
  exact ⟨_, _, h, hkept, rfl, hkept.lastTotal_eq.trans rfl, hkept.total_eq.symm.trans rfl⟩

end LineStore.Store
