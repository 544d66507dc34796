import LineStore.Telemetry.Counters
import Mathlib.Algebra.GroupWithZero.Nat
import Mathlib.Data.List.Basic
import Mathlib.Data.List.Induction

/-!
What counters hold after some changes, in whatever order these were made.

Every word counts the changes that are its own, modulo the size of a word. So it tells how many there were,
as long as they are fewer than that.
-/

namespace LineStore.Telemetry

/-! ### Histograms -/

namespace Histogram

def Update.isBucket : Update → Bool
  | bucket _ => true
  | _ => false

/-- All samples that are counted in buckets. -/
def total (histogram : Histogram) : Nat :=
  (histogram.counts.map UInt64.toNat).sum

/-- Whether a histogram has a bucket for each bound and one more. -/
def Whole (histogram : Histogram) : Prop :=
  histogram.counts.length = histogram.bounds.length + 1

theorem whole_ofBounds (bounds : List UInt64) : (ofBounds bounds).Whole :=
  List.length_replicate

theorem bucketOf_le (bounds : List UInt64) (latency : UInt64) : bucketOf bounds latency ≤ bounds.length := by
  rw [bucketOf]
  cases h : bounds.findIdx? (latency ≤ ·) with
  | none => exact Nat.le_refl _
  | some i => exact Nat.le_of_lt (List.findIdx?_eq_some_iff_findIdx_eq.1 h).1

variable {histogram : Histogram}

theorem Whole.apply (h : histogram.Whole) (update : Update) : (histogram.apply update).Whole := by
  cases update with
  | bucket latency => exact (List.length_modify ..).trans h
  | _ => exact h

/-- One more in one place of a list of words, which does not wrap, is one more in all. -/
theorem sum_toNat_modify {counts : List UInt64} {i : Nat} (hi : i < counts.length)
    (hroom : (counts.map UInt64.toNat).sum + 1 < UInt64.size) :
    ((counts.modify i (· + 1)).map UInt64.toNat).sum = (counts.map UInt64.toNat).sum + 1 := by
  induction counts generalizing i with
  | nil => cases hi
  | cons word counts ih =>
    rw [List.map_cons, List.sum_cons] at hroom ⊢
    cases i with
    | zero =>
      have hword : (word + 1).toNat = word.toNat + 1 := by
        rw [UInt64.toNat_add]
        exact Nat.mod_eq_of_lt (by rw [UInt64.size] at hroom; simp; omega)
      rw [List.modify_zero_cons, List.map_cons, List.sum_cons, hword]
      omega
    | succ i =>
      rw [List.modify_succ_cons, List.map_cons, List.sum_cons, ih (Nat.lt_of_succ_lt_succ hi) (by omega)]
      omega

theorem Whole.total_apply (h : histogram.Whole) (update : Update)
    (hroom : histogram.total + update.isBucket.toNat < UInt64.size) :
    (histogram.apply update).total = histogram.total + update.isBucket.toNat := by
  cases update with
  | bucket latency =>
    refine sum_toNat_modify ?_ hroom
    rw [h]
    exact Nat.lt_succ_of_le (bucketOf_le _ _)
  | _ => rfl

end Histogram

/-! ### Counters -/

def Update.isBucket : Update → Bool
  | latency update => update.isBucket
  | _ => false

namespace Counters

/-- The counters after some changes. -/
def after (changes : List Update) : Counters :=
  changes.foldl apply {}

theorem after_concat (changes : List Update) (update : Update) :
    after (changes ++ [update]) = (after changes).apply update :=
  List.foldl_concat ..

/-- A word that one kind of change makes greater by one, and no other touches, counts these changes. -/
theorem word_after {word : Counters → UInt64} {own : Update} (hzero : word {} = 0)
    (hown : ∀ counters, word (apply counters own) = word counters + 1)
    (hother : ∀ counters update, update ≠ own → word (apply counters update) = word counters)
    (changes : List Update) : word (after changes) = UInt64.ofNat (changes.count own) := by
  induction changes using List.reverseRecOn with
  | nil => exact hzero
  | append_singleton changes update ih =>
    rw [after_concat, List.count_append]
    by_cases h : update = own
    · rw [h, hown, ih, List.count_singleton_self, UInt64.ofNat_add]
      rfl
    · rw [hother _ _ h, ih, List.count_singleton, if_neg (by simpa using h), Nat.add_zero]

variable (changes : List Update)

theorem requests_after : (after changes).requests = UInt64.ofNat (changes.count .request) := by
  refine word_after rfl (fun _ => rfl) (fun _ update h => ?_) changes
  cases update with
  | request => exact absurd rfl h
  | _ => rfl

theorem errors_after : (after changes).errors = UInt64.ofNat (changes.count .error) := by
  refine word_after rfl (fun _ => rfl) (fun _ update h => ?_) changes
  cases update with
  | error => exact absurd rfl h
  | _ => rfl

theorem accepted_after : (after changes).accepted = UInt64.ofNat (changes.count .accept) := by
  refine word_after rfl (fun _ => rfl) (fun _ update h => ?_) changes
  cases update with
  | accept => exact absurd rfl h
  | _ => rfl

theorem closed_after : (after changes).closed = UInt64.ofNat (changes.count .close) := by
  refine word_after rfl (fun _ => rfl) (fun _ update h => ?_) changes
  cases update with
  | close => exact absurd rfl h
  | _ => rfl

theorem samples_after :
    (after changes).latency.samples = UInt64.ofNat (changes.count (.latency .sample)) := by
  refine @word_after (fun counters => counters.latency.samples) (.latency .sample) rfl (fun _ => rfl)
    (fun _ update h => ?_) changes
  cases update with
  | latency update =>
    cases update with
    | sample => exact absurd rfl h
    | _ => rfl
  | _ => rfl

/-- The word of the requests that were begun and not ended goes up and down. -/
theorem inflight_after :
    (after changes).inflight + UInt64.ofNat (changes.count .leave) =
      UInt64.ofNat (changes.count .enter) := by
  induction changes using List.reverseRecOn with
  | nil => rfl
  | append_singleton changes update ih =>
    rw [after_concat, List.count_append, List.count_append, UInt64.ofNat_add, UInt64.ofNat_add, ← ih]
    cases update with
    | enter =>
      have hmove (a b : UInt64) : a + 1 + b = a + b + 1 := by grind
      simp [apply, hmove]
    | leave =>
      have hmove (a b : UInt64) : a - 1 + (b + 1) = a + b := by grind
      simp [apply, hmove]
    | _ => simp [apply]

theorem whole_after : (after changes).latency.Whole := by
  induction changes using List.reverseRecOn with
  | nil => exact Histogram.whole_ofBounds _
  | append_singleton changes update ih =>
    rw [after_concat]
    cases update with
    | latency update => exact ih.apply update
    | _ => exact ih

theorem total_apply {counters : Counters} (h : counters.latency.Whole) (update : Update)
    (hroom : counters.latency.total + update.isBucket.toNat < UInt64.size) :
    (counters.apply update).latency.total = counters.latency.total + update.isBucket.toNat := by
  cases update with
  | latency update => exact h.total_apply update hroom
  | _ => rfl

/-- The buckets together count the changes of buckets. -/
theorem total_after (h : changes.countP Update.isBucket < UInt64.size) :
    (after changes).latency.total = changes.countP Update.isBucket := by
  induction changes using List.reverseRecOn with
  | nil => rfl
  | append_singleton changes update ih =>
    have hlast : (changes ++ [update]).countP Update.isBucket =
        changes.countP Update.isBucket + update.isBucket.toNat := by
      rw [List.countP_append, List.countP_singleton]
      cases update.isBucket <;> rfl
    rw [hlast] at h ⊢
    rw [after_concat, total_apply (whole_after changes), ih (by omega)]
    rwa [ih (by omega)]

end Counters

end LineStore.Telemetry
