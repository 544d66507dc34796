import LineStore.Store.Chain
import Mathlib.Data.List.Nodup

/-!
What the operations on a bucket do to the values of its keys, and what they keep.
-/

namespace LineStore.Store.Chain

variable {chain : Chain} {key value : String}

/-- The count of a bucket is that of its entries, and these have different keys. -/
structure Sound (chain : Chain) : Prop where
  counted : chain.count = chain.entries.length
  distinct : (chain.entries.map Entry.key).Nodup

theorem sound_empty : Sound {} :=
  ⟨rfl, List.nodup_nil⟩

/-! ### Values -/

theorem contains_iff : chain.contains key ↔ ∃ entry ∈ chain.entries, entry.key = key := by
  simp only [contains, List.any_eq_true, decide_eq_true_eq]

theorem find?_eq_none_iff : chain.find? key = none ↔ ∀ entry ∈ chain.entries, entry.key ≠ key := by
  simp only [find?, Option.map_eq_none_iff, List.find?_eq_none, decide_eq_true_eq]

theorem contains_iff_find? : chain.contains key ↔ ∃ value, chain.find? key = some value := by
  rw [← Option.ne_none_iff_exists', Ne, find?_eq_none_iff, contains_iff]
  simp only [ne_eq, not_forall, not_not, exists_prop]

theorem find?_push (k : String) :
    (chain.push { key, value }).find? k = if k = key then some value else chain.find? k := by
  by_cases hk : k = key
  · simp [find?, push, hk]
  · simp [find?, push, hk, Ne.symm hk]

theorem find?_replace (h : chain.contains key) (k : String) :
    (chain.replace key value).find? k = if k = key then some value else chain.find? k := by
  have hkey : ((fun entry => decide (entry.key = k)) ∘ fun entry : Entry =>
      if entry.key = key then { entry with value } else entry) =
      fun entry => decide (entry.key = k) := by
    funext entry
    rw [Function.comp_apply]
    split <;> rfl
  simp only [find?, replace, List.find?_map, hkey, Option.map_map]
  cases hfind : chain.entries.find? (·.key = k) with
  | none =>
    rw [if_neg]
    · rfl
    · rintro rfl
      obtain ⟨entry, hentry, hk⟩ := contains_iff.1 h
      exact List.find?_eq_none.1 hfind entry hentry (decide_eq_true hk)
  | some entry =>
    have hk : entry.key = k := by simpa using List.find?_some hfind
    subst hk
    simp only [Option.map_some, Function.comp_apply]
    split <;> rfl

theorem find?_erase (h : (chain.entries.map Entry.key).Nodup) (k : String) :
    (chain.erase key).find? k = if k = key then none else chain.find? k := by
  obtain ⟨entries, count⟩ := chain
  simp only [find?, erase] at h ⊢
  induction entries with
  | nil => simp
  | cons entry entries ih =>
    obtain ⟨hfresh, htail⟩ := List.nodup_cons.1 h
    by_cases hentry : entry.key = key
    · simp only [List.eraseP_cons, hentry, decide_true, cond_true]
      by_cases hk : k = key
      · have hnone : entries.find? (·.key = k) = none := by
          refine List.find?_eq_none.2 fun other hother hkey => hfresh ?_
          rw [hentry, ← hk, ← of_decide_eq_true hkey]
          exact List.mem_map_of_mem hother
        rw [if_pos hk, hnone]
        rfl
      · rw [if_neg hk, List.find?_cons_of_neg]
        simpa [hentry] using Ne.symm hk
    · simp only [List.eraseP_cons, hentry, decide_false, cond_false, List.find?_cons]
      split
      · rename_i hk
        rw [if_neg]
        exact fun heq => hentry ((of_decide_eq_true hk).trans heq)
      · exact ih htail

/-! ### Soundness -/

namespace Sound

theorem push (h : chain.Sound) (habsent : ¬ chain.contains key) : (chain.push { key, value }).Sound := by
  constructor
  · exact congrArg (· + 1) h.counted
  · refine List.nodup_cons.2 ⟨fun hmem => habsent ?_, h.distinct⟩
    obtain ⟨entry, hentry, hkey⟩ := List.mem_map.1 hmem
    exact contains_iff.2 ⟨entry, hentry, hkey⟩

theorem replace (h : chain.Sound) : (chain.replace key value).Sound := by
  have hkeys : (chain.replace key value).entries.map Entry.key = chain.entries.map Entry.key := by
    rw [Chain.replace, List.map_map]
    refine List.map_congr_left fun entry _ => ?_
    rw [Function.comp_apply]
    split <;> rfl
  constructor
  · rw [Chain.replace, List.length_map]
    exact h.counted
  · rw [hkeys]
    exact h.distinct

theorem erase (h : chain.Sound) (hcontains : chain.contains key) : (chain.erase key).Sound := by
  obtain ⟨entry, hentry, hkey⟩ := contains_iff.1 hcontains
  constructor
  · rw [Chain.erase, List.length_eraseP_of_mem hentry (decide_eq_true hkey), h.counted]
  · exact h.distinct.sublist ((List.eraseP_sublist ..).map Entry.key)

end Sound

end LineStore.Store.Chain
