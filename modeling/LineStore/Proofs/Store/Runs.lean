import LineStore.Proofs.Store.Census

/-!
A store that is used by one operation after another answers as a finite map does. The number of its
buckets does not show in the answers.
-/

namespace LineStore.Store

variable {store : Store}

theorem performAll_append (store : Store) (operations more : List Operation) :
    store.performAll (operations ++ more) =
      ((store.performAll operations).1 ++ ((store.performAll operations).2.performAll more).1,
        ((store.performAll operations).2.performAll more).2) := by
  induction operations generalizing store with
  | nil => rfl
  | cons operation operations ih =>
    simp only [List.cons_append, performAll, ih]

theorem length_performAll (store : Store) (operations : List Operation) :
    (store.performAll operations).1.length = operations.length := by
  induction operations generalizing store with
  | nil => rfl
  | cons operation operations ih =>
    simp only [performAll, List.length_cons, ih]

theorem Sound.performAll (h : store.Sound) (operations : List Operation) :
    (store.performAll operations).1 = (store.contents.performAll operations).1 ∧
      (store.performAll operations).2.contents = (store.contents.performAll operations).2 ∧
      (store.performAll operations).2.Sound := by
  induction operations generalizing store with
  | nil => exact ⟨rfl, rfl, h⟩
  | cons operation operations ih =>
    obtain ⟨hanswer, hcontents, hsound⟩ := h.perform operation
    obtain ⟨hanswers, hlast, hlastSound⟩ := ih hsound
    rw [hcontents] at hanswers hlast
    simp only [Store.performAll, Contents.performAll, hanswer, hanswers]
    exact ⟨trivial, hlast, hlastSound⟩

/-- However many buckets a store has, it answers every sequence of operations as a finite map does and
ends with the contents of that map. Its size is the number of keys of the map. -/
theorem performAll_eq_contents {buckets : Nat} (hbuckets : 0 < buckets) (operations : List Operation) :
    let result := (empty buckets hbuckets).performAll operations
    let expected := Contents.empty.performAll operations
    result.1 = expected.1 ∧ result.2.contents = expected.2 ∧
      (∃ keys : Finset String, (∀ key, key ∈ keys ↔ ∃ value, expected.2 key = some value) ∧
        result.2.size = keys.card) ∧
      (result.2.isEmpty = true ↔ ∀ key, expected.2 key = none) ∧
      ∀ (other : Nat) (hother : 0 < other),
        ((empty other hother).performAll operations).1 = result.1 := by
  have hrun : ∀ (count : Nat) (h : 0 < count),
      ((empty count h).performAll operations).1 = (Contents.empty.performAll operations).1 ∧
        ((empty count h).performAll operations).2.contents =
          (Contents.empty.performAll operations).2 ∧
        ((empty count h).performAll operations).2.Sound := by
    intro count h
    have hperform := (sound_empty h).performAll operations
    rwa [contents_empty] at hperform
  obtain ⟨hanswers, hcontents, hsound⟩ := hrun buckets hbuckets
  refine ⟨hanswers, hcontents, ⟨_, fun key => ?_, hsound.size_eq_card⟩, ?_, fun other hother => ?_⟩
  · rw [← hcontents]
    exact hsound.mem_keys_iff
  · rw [← hcontents]
    exact hsound.isEmpty_iff
  · exact (hrun other hother).1.trans hanswers.symm

/-- Two keys that share a bucket, one of which is an empty text: the older one is taken out from behind the
newer one, which has been updated, and its key is free again. -/
theorem performAll_eq_contents_collision :
    ∃ after : Store, (empty 1 Nat.one_pos).performAll
        [.insert "" "1", .insert "a b" "2", .insert "" "3", .update "a b" "\n", .delete "", .search "",
          .search "a b"] =
      ([.insert true, .insert true, .insert false, .update true, .delete true, .search none,
        .search (some "\n")], after) ∧ after.contents "a b" = some "\n" := by
  have h := performAll_eq_contents Nat.one_pos
    [.insert "" "1", .insert "a b" "2", .insert "" "3", .update "a b" "\n", .delete "", .search "",
      .search "a b"]
  exact ⟨_, Prod.ext (h.1.trans rfl) rfl, (congrFun h.2.1 "a b").trans rfl⟩

end LineStore.Store
