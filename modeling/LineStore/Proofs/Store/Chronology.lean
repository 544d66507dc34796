import LineStore.Proofs.Store.Keywise
import LineStore.Proofs.Store.Listings
import LineStore.Proofs.Store.Runs
import LineStore.Store.Chronicle

/-!
A dump lists the entries of a bucket in the order in which they were made, latest first.

The chronicle of the operations knows when the entry of a key was made. Every bucket lists its entries by
what the chronicle says of them, and an operation changes the birth of the entry of its own key at most.
-/

namespace LineStore.Store

variable {operations : List Operation} {outcomes : List Outcome} {operation : Operation}
  {outcome : Outcome} {chronicle : Chronicle} {store : Store} {entries : List Entry} {key : String}
  {number : Nat}

/-- Whether the operation of this number made the entry that a key has after these operations: it inserted
the key, and no later one took it out. -/
structure Created (operations : List Operation) (outcomes : List Outcome) (key : String) (number : Nat) :
    Prop where
  inserts : ∃ value, operations[number]? = some (.insert key value)
  succeeds : outcomes[number]? = some (.insert true)
  stays : ∀ later, number < later → operations[later]? ≠ some (.delete key)

theorem Created.concat (h : Created operations outcomes key number)
    (hstays : operation ≠ .delete key) :
    Created (operations ++ [operation]) (outcomes ++ [outcome]) key number where
  inserts := by
    obtain ⟨value, hvalue⟩ := h.inserts
    exact ⟨value, List.getElem?_append_left (List.getElem?_eq_some_iff.1 hvalue).1 ▸ hvalue⟩
  succeeds :=
    List.getElem?_append_left (List.getElem?_eq_some_iff.1 h.succeeds).1 ▸ h.succeeds
  stays later hlater hdelete := by
    rcases Nat.lt_trichotomy later operations.length with hlt | rfl | hgt
    · rw [List.getElem?_append_left hlt] at hdelete
      exact h.stays later hlater hdelete
    · rw [List.getElem?_concat_length, Option.some_inj] at hdelete
      exact hstays hdelete
    · rw [List.getElem?_eq_none (by simpa using Nat.succ_le_of_lt hgt)] at hdelete
      cases hdelete

theorem created_concat (hlength : outcomes.length = operations.length) (key value : String) :
    Created (operations ++ [.insert key value]) (outcomes ++ [.insert true]) key operations.length where
  inserts := ⟨value, List.getElem?_concat_length⟩
  succeeds := hlength ▸ List.getElem?_concat_length
  stays later hlater hdelete := by
    rw [List.getElem?_eq_none (by simpa using Nat.succ_le_of_lt hlater)] at hdelete
    cases hdelete

/-! ### Chronicles -/

namespace Chronicle

/-- The values of all keys, births apart. -/
def values (chronicle : Chronicle) : Contents :=
  fun key => (chronicle.record? key).map Record.value

theorem ofOperations_concat (operations : List Operation) (operation : Operation) :
    ofOperations (operations ++ [operation]) =
      (ofOperations operations).note operations.length operation := by
  simp [ofOperations, List.zipIdx_append]

theorem record?_note_of_ne (h : key ≠ operation.key) :
    (chronicle.note number operation).record? key = chronicle.record? key := by
  cases operation with
  | search k => rfl
  | insert k value =>
    rw [note]
    split
    · rfl
    · exact if_neg h
  | update k value | delete k => exact if_neg h

theorem record?_note_update (value : String) :
    (chronicle.note number (.update key value)).record? key =
      (chronicle.record? key).map fun record => { record with value } :=
  if_pos rfl

theorem record?_note_delete : (chronicle.note number (.delete key)).record? key = none :=
  if_pos rfl

theorem note_insert_of_some {record : Record} (h : chronicle.record? key = some record) (value : String) :
    chronicle.note number (.insert key value) = chronicle := by
  rw [note, h]

theorem record?_note_insert (h : chronicle.record? key = none) (value : String) :
    (chronicle.note number (.insert key value)).record? key = some { value, birth := number } := by
  rw [note, h]
  exact if_pos rfl

theorem birth_note_of_ne (h : key ≠ operation.key) :
    (chronicle.note number operation).birth key = chronicle.birth key := by
  rw [birth, record?_note_of_ne h, birth]

theorem birth_note_update (k value : String) :
    (chronicle.note number (.update key value)).birth k = chronicle.birth k := by
  by_cases h : k = key
  · rw [h, birth, record?_note_update, Option.map_map, birth]
    rfl
  · exact birth_note_of_ne h

theorem values_note (chronicle : Chronicle) (number : Nat) (operation : Operation) :
    (chronicle.note number operation).values = (chronicle.values.perform operation).2 := by
  funext key
  by_cases h : key = operation.key
  · simp only [h, Contents.perform_eq, Contents.set, ↓reduceIte]
    cases operation with
    | search k => rfl
    | insert k value =>
      cases hrecord : chronicle.record? k with
      | none => simp [values, Operation.key, record?_note_insert hrecord, hrecord, Operation.effect]
      | some record =>
        simp [values, Operation.key, note_insert_of_some hrecord, hrecord, Operation.effect]
    | update k value =>
      cases hrecord : chronicle.record? k <;>
        simp [values, Operation.key, record?_note_update, hrecord, Operation.effect]
    | delete k =>
      cases hrecord : chronicle.record? k <;>
        simp [values, Operation.key, record?_note_delete, hrecord, Operation.effect]
  · rw [Contents.perform_of_key_ne (Ne.symm h), values, record?_note_of_ne h, values]

/-- Whether entries are in the order of their births, latest first. -/
def Ordered (chronicle : Chronicle) (entries : List Entry) : Prop :=
  entries.Pairwise fun entry other => chronicle.birth other.key < chronicle.birth entry.key

theorem Ordered.note_of_ne (h : chronicle.Ordered entries)
    (hne : ∀ entry ∈ entries, entry.key ≠ operation.key) :
    (chronicle.note number operation).Ordered entries := by
  refine List.Pairwise.imp_of_mem (fun {entry other} hentry hother hlt => ?_) h
  rwa [birth_note_of_ne (hne entry hentry), birth_note_of_ne (hne other hother)]

/-- An entry that is made is the latest of all, and comes first. What is done to the others keeps their
order. -/
theorem Ordered.rearrange (h : chronicle.Ordered entries)
    (hborn : ∀ entry ∈ entries, chronicle.birth entry.key < number)
    (hknown : ∀ key value, operation = .insert key value →
      ((∃ entry ∈ entries, entry.key = key) ↔ ∃ record, chronicle.record? key = some record)) :
    (chronicle.note number operation).Ordered (operation.rearrange entries) := by
  cases operation with
  | search key => exact h
  | insert key value =>
    have hkey := hknown key value rfl
    rw [Operation.rearrange]
    split
    · rename_i hpresent
      obtain ⟨record, hrecord⟩ := hkey.1 hpresent
      rwa [note_insert_of_some hrecord]
    · rename_i habsent
      have hnone : chronicle.record? key = none :=
        Option.eq_none_iff_forall_ne_some.2 fun record hrecord => habsent (hkey.2 ⟨record, hrecord⟩)
      have hne : ∀ entry ∈ entries, entry.key ≠ key := fun entry hentry heq =>
        habsent ⟨entry, hentry, heq⟩
      refine List.pairwise_cons.2 ⟨fun other hother => ?_, h.note_of_ne hne⟩
      rw [birth_note_of_ne (hne other hother), birth, birth, record?_note_insert hnone]
      exact hborn other hother
  | update key value =>
    refine List.pairwise_map.2 (h.imp fun {entry other} hlt => ?_)
    have hkey : ∀ entry : Entry,
        (if entry.key = key then { entry with value } else entry : Entry).key = entry.key := by
      intro entry
      split <;> rfl
    rwa [hkey, hkey, birth_note_update, birth_note_update]
  | delete key =>
    refine Ordered.note_of_ne (h.sublist List.filter_sublist) fun entry hentry => ?_
    exact of_decide_eq_true (List.mem_filter.1 hentry).2

end Chronicle

/-! ### Stores -/

/-- What the chronicle of the operations on a store says of it. -/
structure Follows (operations : List Operation) (outcomes : List Outcome) (store : Store) : Prop where
  sound : store.Sound
  values_eq : (Chronicle.ofOperations operations).values = store.contents
  length_eq : outcomes.length = operations.length
  created : ∀ key record, (Chronicle.ofOperations operations).record? key = some record →
    Created operations outcomes key record.birth
  ordered : ∀ (i : Nat) (chain : Chain), store.chains[i]? = some chain →
    (Chronicle.ofOperations operations).Ordered chain.entries

namespace Follows

theorem start {buckets : Nat} (hbuckets : 0 < buckets) : Follows [] [] (empty buckets hbuckets) where
  sound := sound_empty hbuckets
  values_eq := (contents_empty hbuckets).symm
  length_eq := rfl
  created key record h := by cases h
  ordered i chain hi := by
    rw [empty, Array.getElem?_replicate] at hi
    split at hi
    · cases hi
      exact List.Pairwise.nil
    · cases hi

variable (h : Follows operations outcomes store)
include h

theorem record?_isSome {key value : String} (hvalue : store.contents key = some value) :
    ∃ record, (Chronicle.ofOperations operations).record? key = some record ∧ record.value = value := by
  rw [← h.values_eq] at hvalue
  exact Option.map_eq_some_iff.1 hvalue

theorem mem_iff {i : Nat} {chain : Chain} (hi : store.chains[i]? = some chain) (entry : Entry) :
    entry ∈ chain.entries ↔ bucketOf entry.key store.bucketCount = i ∧
      ((Chronicle.ofOperations operations).record? entry.key).map Record.value = some entry.value := by
  have hvalue : ((Chronicle.ofOperations operations).record? entry.key).map Record.value =
      store.contents entry.key := congrFun h.values_eq entry.key
  rw [hvalue]
  constructor
  · intro hentry
    exact ⟨h.sound.placed i chain hi entry hentry,
      h.sound.contents_eq_some_iff.2 (mem_entries.2 ⟨i, chain, hi, hentry⟩)⟩
  · rintro ⟨rfl, hvalue⟩
    rw [chainOf_eq_some, Option.some_inj] at hi
    exact hi ▸ (h.sound.chainOf entry.key).find?_eq_some_iff.1 hvalue

theorem lists {i : Nat} {chain : Chain} (hi : store.chains[i]? = some chain) :
    (Chronicle.ofOperations operations).Lists i store.bucketCount chain.entries :=
  ⟨h.mem_iff hi, h.ordered i chain hi⟩

/-- Every entry was made by an operation, so before the next one. -/
theorem birth_lt {i : Nat} {chain : Chain} (hi : store.chains[i]? = some chain) {entry : Entry}
    (hentry : entry ∈ chain.entries) :
    (Chronicle.ofOperations operations).birth entry.key < operations.length := by
  obtain ⟨record, hrecord, -⟩ := Option.map_eq_some_iff.1 ((h.mem_iff hi entry).1 hentry).2
  obtain ⟨value, hinsert⟩ := (h.created _ record hrecord).inserts
  rw [Chronicle.birth, hrecord]
  exact (List.getElem?_eq_some_iff.1 hinsert).1

theorem created_perform (operation : Operation) (key : String) (record : Record)
    (hrecord : ((Chronicle.ofOperations operations).note operations.length operation).record? key =
      some record) :
    Created (operations ++ [operation]) (outcomes ++ [(store.perform operation).1]) key record.birth := by
  by_cases hkey : key = operation.key
  · subst hkey
    cases operation with
    | search k => exact (h.created k record hrecord).concat (by simp)
    | insert k value =>
      cases hold : (Chronicle.ofOperations operations).record? k with
      | none =>
        have hnone : store.contents k = none := by
          rw [← h.values_eq, Chronicle.values, hold]
          rfl
        have houtcome : (store.perform (.insert k value)).1 = .insert true := by
          rw [(h.sound.perform _).1, Contents.perform, hnone]
        simp only [Operation.key, Chronicle.record?_note_insert hold, Option.some_inj] at hrecord
        rw [houtcome, ← hrecord]
        exact created_concat h.length_eq k value
      | some old =>
        rw [Chronicle.note_insert_of_some hold] at hrecord
        exact (h.created k record hrecord).concat (by simp)
    | update k value =>
      simp only [Operation.key, Chronicle.record?_note_update] at hrecord
      obtain ⟨old, hold, rfl⟩ := Option.map_eq_some_iff.1 hrecord
      exact (h.created k old hold).concat (by simp)
    | delete k =>
      simp only [Operation.key, Chronicle.record?_note_delete] at hrecord
      cases hrecord
  · rw [Chronicle.record?_note_of_ne hkey] at hrecord
    refine (h.created key record hrecord).concat fun hdelete => hkey ?_
    rw [hdelete, Operation.key]

theorem ordered_perform (operation : Operation) (i : Nat) (chain : Chain)
    (hi : (store.perform operation).2.chains[i]? = some chain) :
    ((Chronicle.ofOperations operations).note operations.length operation).Ordered chain.entries := by
  rw [chains_perform] at hi
  split at hi
  · rename_i hbucket
    cases hi
    have hchain := chainOf_eq_some store operation.key
    rw [(h.sound.chainOf operation.key).entries_perform]
    refine Chronicle.Ordered.rearrange (h.ordered _ _ hchain)
      (fun entry hentry => h.birth_lt hchain hentry) fun key value hinsert => ?_
    subst hinsert
    rw [Chain.exists_key_iff, Option.isSome_iff_exists]
    have hvalue := congrFun h.values_eq key
    constructor
    · rintro ⟨value, hfind⟩
      obtain ⟨record, hrecord, -⟩ := h.record?_isSome hfind
      exact ⟨record, hrecord⟩
    · rintro ⟨record, hrecord⟩
      rw [Chronicle.values, hrecord] at hvalue
      exact ⟨record.value, hvalue.symm⟩
  · rename_i hbucket
    refine (h.ordered i chain hi).note_of_ne fun entry hentry heq => hbucket ?_
    rw [← heq, h.sound.placed i chain hi entry hentry]

theorem perform (operation : Operation) :
    Follows (operations ++ [operation]) (outcomes ++ [(store.perform operation).1])
      (store.perform operation).2 where
  sound := (h.sound.perform operation).2.2
  values_eq := by
    rw [Chronicle.ofOperations_concat, Chronicle.values_note, h.values_eq,
      (h.sound.perform operation).2.1]
  length_eq := by
    rw [List.length_append, List.length_append, h.length_eq]
    rfl
  created := by
    rw [Chronicle.ofOperations_concat]
    exact h.created_perform operation
  ordered := by
    rw [Chronicle.ofOperations_concat]
    exact h.ordered_perform operation

theorem performAll (more : List Operation) :
    Follows (operations ++ more) (outcomes ++ (store.performAll more).1) (store.performAll more).2 := by
  induction more generalizing operations outcomes store with
  | nil => simpa [Store.performAll] using h
  | cons operation more ih =>
    have hrest := ih (h.perform operation)
    rwa [List.append_assoc, List.append_assoc] at hrest

end Follows

theorem bucketCount_performAll (store : Store) (operations : List Operation) :
    (store.performAll operations).2.bucketCount = store.bucketCount := by
  induction operations generalizing store with
  | nil => rfl
  | cons operation operations ih =>
    rw [Store.performAll, ih, bucketCount_perform]

/-- After any operations on an empty store a dump lists, ascending, just the buckets to which some key with a
value belongs. The entries of each are those of all its keys, with their values, and they are in the order in
which they were made, latest first: each was made by the last operation that inserted its key. So an entry
that is made comes first, one whose value is replaced stays where it is, a key that is there already changes
nothing, and where an entry is taken out the others stay in order. -/
theorem dump_latest_first {buckets : Nat} (hbuckets : 0 < buckets) (operations : List Operation) :
    let chronicle := Chronicle.ofOperations operations
    let contents := (Contents.empty.performAll operations).2
    let outcomes := ((empty buckets hbuckets).performAll operations).1
    let store := ((empty buckets hbuckets).performAll operations).2
    let dump := store.dump.1
    (dump.buckets.map BucketDump.index).Pairwise (· < ·) ∧
    (∀ i, i ∈ dump.buckets.map BucketDump.index ↔
      ∃ key value, contents key = some value ∧ bucketOf key buckets = i) ∧
    (∀ bucket ∈ dump.buckets, chronicle.Lists bucket.index buckets bucket.entries) ∧
    (∀ key, (chronicle.record? key).map Record.value = contents key) ∧
    (∀ key record, chronicle.record? key = some record →
      Created operations outcomes key record.birth) ∧
    ∀ operation i, (store.perform operation).2.dump.1.entriesAt i =
      if bucketOf operation.key buckets = i then operation.rearrange (dump.entriesAt i)
      else dump.entriesAt i := by
  intro chronicle contents outcomes store dump
  have hfollows : Follows operations outcomes store := (Follows.start hbuckets).performAll operations
  have hcontents : store.contents = contents := by
    have hperform := ((sound_empty hbuckets).performAll operations).2.1
    rwa [contents_empty] at hperform
  have hcount : store.bucketCount = buckets := by
    rw [bucketCount_performAll]
    exact Array.size_replicate
  refine ⟨index_lt_dump store, fun i => ?_, fun bucket hbucket => ?_, fun key => ?_, hfollows.created,
    fun operation i => ?_⟩
  · rw [hfollows.sound.mem_index_dump_iff, hcontents, hcount]
  · obtain ⟨i, chain, hi, -, rfl⟩ := mem_occupiedBuckets.1 hbucket
    exact hcount ▸ hfollows.lists hi
  · rw [← hcontents, ← hfollows.values_eq]
    rfl
  · rw [hfollows.sound.entriesAt_perform, hcount]

/-- Three keys in one bucket. The oldest entry is taken out and made anew, the next one is updated, and the
last one is already there when it is inserted again. -/
theorem dump_latest_first_reborn :
    let operations : List Operation := [.insert "a" "1", .insert "b" "2", .insert "c" "3", .delete "a",
      .update "b" "4", .insert "c" "5", .insert "a" "6"]
    let result := (empty 1 Nat.one_pos).performAll operations
    result.2.dump.1.buckets =
        [{ index := 0, entries := [⟨"a", "6"⟩, ⟨"c", "3"⟩, ⟨"b", "4"⟩] }] ∧
      (Chronicle.ofOperations operations).Lists 0 1 [⟨"a", "6"⟩, ⟨"c", "3"⟩, ⟨"b", "4"⟩] ∧
      Created operations result.1 "a" 6 ∧
      (result.2.perform (.delete "c")).2.dump.1.entriesAt 0 = [⟨"a", "6"⟩, ⟨"b", "4"⟩] := by
  intro operations result
  have hdump : result.2.dump.1.buckets =
      [{ index := 0, entries := [⟨"a", "6"⟩, ⟨"c", "3"⟩, ⟨"b", "4"⟩] }] := rfl
  obtain ⟨-, -, hlists, -, hcreated, hperform⟩ := dump_latest_first Nat.one_pos operations
  refine ⟨hdump, ?_, hcreated "a" ⟨"6", 6⟩ rfl, (hperform (.delete "c") 0).trans rfl⟩
  exact hlists { index := 0, entries := [⟨"a", "6"⟩, ⟨"c", "3"⟩, ⟨"b", "4"⟩] }
    (hdump ▸ List.mem_singleton_self _)

end LineStore.Store
