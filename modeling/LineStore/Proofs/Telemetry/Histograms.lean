import LineStore.Proofs.Counting
import LineStore.Proofs.Telemetry.Totals
import Mathlib.Algebra.Order.BigOperators.Group.List
import Mathlib.Algebra.Order.Ring.Nat
import Mathlib.Data.UInt

/-!
What a histogram holds after some samples.

Its words are functions of how many samples there were in each bucket, and of what they add up to. So they do
not depend on the order in which the samples were recorded.
-/

namespace LineStore

theorem Span.toNat_microseconds (span : Span) :
    span.microseconds.toNat = min (span.nanoseconds / 1000) (2 ^ 64 - 1) := by
  rw [microseconds, UInt64.toNat_ofNat', Nat.mod_eq_of_lt]
  · rfl
  · exact Nat.lt_of_le_of_lt (Nat.min_le_right _ _) (by decide)

namespace Telemetry.Histogram

/-- The samples of which the latency is recorded, one after another. -/
def recordAll (histogram : Histogram) (spans : List Span) : Histogram :=
  spans.foldl record histogram

/-- What the latencies of samples add up to, in whole microseconds. -/
def latencySum (spans : List Span) : Nat :=
  (spans.map fun span => span.microseconds.toNat).sum

/-! ### Buckets -/

/-- Whether a latency belongs in the bucket at a place: it exceeds all bounds before this place, and not the
bound there, if there is one. -/
def Belongs (bounds : List UInt64) (place : Nat) (latency : UInt64) : Prop :=
  (∀ bound ∈ bounds.take place, bound < latency) ∧ ∀ bound ∈ bounds[place]?, latency ≤ bound

instance (bounds : List UInt64) (place : Nat) (latency : UInt64) :
    Decidable (Belongs bounds place latency) :=
  inferInstanceAs (Decidable (_ ∧ _))

variable {bounds : List UInt64} {latency : UInt64} {place : Nat}

theorem bucketOf_cons (bound : UInt64) :
    bucketOf (bound :: bounds) latency =
      if latency ≤ bound then 0 else bucketOf bounds latency + 1 := by
  by_cases h : latency ≤ bound
  · simp [bucketOf, List.findIdx?_cons, h]
  · cases hrest : bounds.findIdx? (latency ≤ ·) <;> simp [bucketOf, List.findIdx?_cons, h, hrest]

theorem bucketOf_eq_iff (hplace : place ≤ bounds.length) :
    bucketOf bounds latency = place ↔ Belongs bounds place latency := by
  induction bounds generalizing place with
  | nil =>
    obtain rfl : place = 0 := Nat.le_zero.1 hplace
    simp [bucketOf, Belongs]
  | cons bound bounds ih =>
    rw [bucketOf_cons]
    cases place with
    | zero => simp [Belongs]
    | succ place =>
      have hrest := ih (Nat.le_of_succ_le_succ hplace)
      by_cases h : latency ≤ bound
      · simp [Belongs, h]
      · simp only [h, if_false, Nat.add_right_cancel_iff, hrest]
        simp [Belongs, UInt64.not_le.1 h]

/-- In a list of bounds that does not descend, the buckets up to a bound hold what does not exceed it. -/
theorem bucketOf_le_iff (hsorted : bounds.Pairwise (· ≤ ·)) {bound : UInt64}
    (hbound : bounds[place]? = some bound) : bucketOf bounds latency ≤ place ↔ latency ≤ bound := by
  induction bounds generalizing place with
  | nil => simp at hbound
  | cons first bounds ih =>
    obtain ⟨hfirst, hrest⟩ := List.pairwise_cons.1 hsorted
    rw [bucketOf_cons]
    cases place with
    | zero =>
      obtain rfl : first = bound := by simpa using hbound
      by_cases h : latency ≤ first <;> simp [h]
    | succ place =>
      rw [List.getElem?_cons_succ] at hbound
      by_cases h : latency ≤ first
      · simp [h, UInt64.le_trans h (hfirst bound (List.mem_of_getElem? hbound))]
      · simp [h, ih hrest hbound]

/-! ### Words -/

theorem sum_map_ofNat (counts : List Nat) : (counts.map UInt64.ofNat).sum = UInt64.ofNat counts.sum := by
  induction counts with
  | nil => rfl
  | cons count counts ih => rw [List.map_cons, List.sum_cons, ih, List.sum_cons, UInt64.ofNat_add]

/-- The number of samples in the bucket at a place. -/
def countAt (bounds : List UInt64) (spans : List Span) (place : Nat) : Nat :=
  spans.countP fun span => bucketOf bounds span.microseconds = place

theorem recordAll_concat (histogram : Histogram) (spans : List Span) (span : Span) :
    histogram.recordAll (spans ++ [span]) = (histogram.recordAll spans).record span :=
  List.foldl_concat ..

theorem countAt_concat (bounds : List UInt64) (spans : List Span) (span : Span) (place : Nat) :
    countAt bounds (spans ++ [span]) place =
      countAt bounds spans place + if bucketOf bounds span.microseconds = place then 1 else 0 := by
  simp only [countAt, List.countP_append, List.countP_singleton, decide_eq_true_eq]

/-- The counts of the buckets after these samples. -/
def countsOf (bounds : List UInt64) (spans : List Span) : List UInt64 :=
  (List.range (bounds.length + 1)).map fun place => UInt64.ofNat (countAt bounds spans place)

theorem countsOf_nil (bounds : List UInt64) : countsOf bounds [] = List.replicate (bounds.length + 1) 0 := by
  rw [countsOf, List.eq_replicate_iff, List.length_map, List.length_range]
  refine ⟨rfl, fun count hcount => ?_⟩
  obtain ⟨place, -, rfl⟩ := List.mem_map.1 hcount
  rfl

theorem countsOf_concat (bounds : List UInt64) (spans : List Span) (span : Span) :
    countsOf bounds (spans ++ [span]) =
      (countsOf bounds spans).modify (bucketOf bounds span.microseconds) (· + 1) := by
  refine List.ext_getElem? fun place => ?_
  rw [List.getElem?_modify, countsOf, countsOf, List.getElem?_map, List.getElem?_map]
  by_cases hplace : place < bounds.length + 1
  · rw [List.getElem?_range hplace]
    by_cases h : bucketOf bounds span.microseconds = place
    · simp [countAt_concat, h, UInt64.ofNat_add]
    · simp [countAt_concat, h]
  · rw [List.getElem?_eq_none (by simpa using hplace)]
    rfl

theorem recordAll_ofBounds (bounds : List UInt64) (spans : List Span) :
    (ofBounds bounds).recordAll spans =
      { bounds
        counts := countsOf bounds spans
        samples := UInt64.ofNat spans.length
        sum := UInt64.ofNat (latencySum spans) } := by
  induction spans using List.reverseRecOn with
  | nil => exact congrArg (fun counts => ({ bounds, counts } : Histogram)) (countsOf_nil bounds).symm
  | append_singleton spans span ih =>
    have hsum : latencySum (spans ++ [span]) = latencySum spans + span.microseconds.toNat := by
      simp [latencySum]
    rw [recordAll_concat, ih, countsOf_concat, hsum, List.length_append, UInt64.ofNat_add, UInt64.ofNat_add,
      UInt64.ofNat_toNat]
    rfl

/-! ### Sums of buckets -/

theorem sum_take_countsOf (bounds : List UInt64) (spans : List Span) {n : Nat} (hn : n ≤ bounds.length + 1) :
    ((countsOf bounds spans).take n).sum =
      UInt64.ofNat (spans.countP fun span => bucketOf bounds span.microseconds < n) := by
  have hcounts : (countsOf bounds spans).take n =
      ((List.range n).map fun place => countAt bounds spans place).map UInt64.ofNat := by
    rw [countsOf, ← List.map_take, List.take_range, Nat.min_eq_left hn, List.map_map]
    rfl
  rw [hcounts, sum_map_ofNat]
  exact congrArg UInt64.ofNat (sum_countP_eq _ _ _)

theorem sum_countsOf (bounds : List UInt64) (spans : List Span) :
    (countsOf bounds spans).sum = UInt64.ofNat spans.length := by
  have hall := sum_take_countsOf bounds spans (Nat.le_refl _)
  rw [List.take_of_length_le (by rw [countsOf, List.length_map, List.length_range])] at hall
  rw [hall, List.countP_eq_length.2]
  exact fun span _ => decide_eq_true (Nat.lt_succ_of_le (bucketOf_le _ _))

/-! ### The mean -/

variable {spans : List Span}

theorem toNat_mean (bounds : List UInt64) (hsum : latencySum spans < 2 ^ 64) :
    ((ofBounds bounds).recordAll spans).mean.toNat = latencySum spans / (spans.length % 2 ^ 64) := by
  have hwords : (UInt64.ofNat spans.length).toNat = spans.length % 2 ^ 64 := UInt64.toNat_ofNat'
  rw [recordAll_ofBounds, mean]
  by_cases hnone : UInt64.ofNat spans.length = 0
  · rw [if_pos hnone, ← hwords, hnone]
    simp
  · rw [if_neg hnone, UInt64.toNat_div, hwords, UInt64.toNat_ofNat', Nat.mod_eq_of_lt hsum]

/-- A number of samples that has wrapped around does not spoil this bound: there are samples of no microsecond
then. -/
theorem le_mean (bounds : List UInt64) (hsum : latencySum spans < 2 ^ 64) (hsome : spans ≠ [])
    {low : UInt64} (hlow : ∀ span ∈ spans, low ≤ span.microseconds) :
    low ≤ ((ofBounds bounds).recordAll spans).mean := by
  have hleast : spans.length * low.toNat ≤ latencySum spans := by
    have h := List.card_nsmul_le_sum (spans.map fun span => span.microseconds.toNat) low.toNat
      (List.forall_mem_map.2 fun span hspan => UInt64.le_iff_toNat_le.1 (hlow span hspan))
    rwa [List.length_map, Nat.nsmul_eq_mul] at h
  rw [UInt64.le_iff_toNat_le, toNat_mean bounds hsum]
  rcases Nat.eq_zero_or_pos low.toNat with hzero | hpos
  · rw [hzero]
    exact Nat.zero_le _
  · have hlength : spans.length < 2 ^ 64 :=
      Nat.lt_of_le_of_lt (Nat.le_mul_of_pos_right _ hpos) (Nat.lt_of_le_of_lt hleast hsum)
    rw [Nat.mod_eq_of_lt hlength, Nat.le_div_iff_mul_le (List.length_pos_iff.2 hsome), Nat.mul_comm]
    exact hleast

/-- As many samples as there are words are counted as none, and then there is no mean. -/
theorem mean_le (bounds : List UInt64) (hsum : latencySum spans < 2 ^ 64) (hlength : spans.length ≤ 2 ^ 64)
    {high : UInt64} (hhigh : ∀ span ∈ spans, span.microseconds ≤ high) :
    ((ofBounds bounds).recordAll spans).mean ≤ high := by
  have hmost : latencySum spans ≤ spans.length * high.toNat := by
    have h := List.sum_le_card_nsmul (spans.map fun span => span.microseconds.toNat) high.toNat
      (List.forall_mem_map.2 fun span hspan => UInt64.le_iff_toNat_le.1 (hhigh span hspan))
    rwa [List.length_map, Nat.nsmul_eq_mul] at h
  rw [UInt64.le_iff_toNat_le, toNat_mean bounds hsum]
  rcases Nat.lt_or_eq_of_le hlength with hless | hall
  · rw [Nat.mod_eq_of_lt hless]
    exact Nat.div_le_of_le_mul hmost
  · rw [hall, Nat.mod_self, Nat.div_zero]
    exact Nat.zero_le _

/-! ### Histograms of samples -/

/-- Whether a histogram tells of these samples, by these bounds. Its words are counts and a sum, modulo the size
of a word. -/
structure Tells (histogram : Histogram) (bounds : List UInt64) (spans : List Span) : Prop where
  bounds_eq : histogram.bounds = bounds
  length_counts : histogram.counts.length = bounds.length + 1
  /-- Every latency belongs in one bucket. -/
  classified : ∀ latency, ∃! place, place ≤ bounds.length ∧ Belongs bounds place latency
  counts_eq : ∀ place ≤ bounds.length, histogram.counts[place]? =
    some (UInt64.ofNat (spans.countP fun span => Belongs bounds place span.microseconds))
  sum_counts : histogram.counts.sum = histogram.samples
  samples_eq : histogram.samples = UInt64.ofNat spans.length
  sum_eq : histogram.sum = UInt64.ofNat (latencySum spans)
  /-- If the bounds do not descend, the buckets up to a bound hold the samples that do not exceed it. -/
  cumulative : bounds.Pairwise (· ≤ ·) → ∀ place bound, bounds[place]? = some bound →
    (histogram.counts.take (place + 1)).sum =
      UInt64.ofNat (spans.countP fun span => span.microseconds ≤ bound)
  /-- The mean lies between the samples as long as neither word that it is made of has gone round. Samples of no
  microsecond can make the count of the samples do so where their sum does not: then the mean may be too great. -/
  mean_between : latencySum spans < 2 ^ 64 → spans ≠ [] → ∀ low high,
    (∀ span ∈ spans, low ≤ span.microseconds ∧ span.microseconds ≤ high) →
      low ≤ histogram.mean ∧ (spans.length ≤ 2 ^ 64 → histogram.mean ≤ high)

theorem countAt_eq (hplace : place ≤ bounds.length) (spans : List Span) :
    countAt bounds spans place = spans.countP fun span => Belongs bounds place span.microseconds := by
  simp only [countAt, bucketOf_eq_iff hplace]

theorem countAt_perm {spans' : List Span} (h : spans.Perm spans') (bounds : List UInt64) :
    countAt bounds spans = countAt bounds spans' :=
  funext fun _ => h.countP_eq _

theorem tells_recordAll (bounds : List UInt64) (spans : List Span) :
    ((ofBounds bounds).recordAll spans).Tells bounds spans where
  bounds_eq := by rw [recordAll_ofBounds]
  length_counts := by rw [recordAll_ofBounds, countsOf, List.length_map, List.length_range]
  classified latency := by
    refine ⟨bucketOf bounds latency, ⟨bucketOf_le _ _, (bucketOf_eq_iff (bucketOf_le _ _)).1 rfl⟩, ?_⟩
    rintro place ⟨hplace, hbelongs⟩
    exact ((bucketOf_eq_iff hplace).2 hbelongs).symm
  counts_eq place hplace := by
    rw [recordAll_ofBounds, countsOf, List.getElem?_map, List.getElem?_range (Nat.lt_succ_of_le hplace),
      ← countAt_eq hplace]
    rfl
  sum_counts := by rw [recordAll_ofBounds, sum_countsOf]
  samples_eq := by rw [recordAll_ofBounds]
  sum_eq := by rw [recordAll_ofBounds]
  cumulative hsorted place bound hbound := by
    have hplace := (List.getElem?_eq_some_iff.1 hbound).1
    rw [recordAll_ofBounds, sum_take_countsOf _ _ (Nat.succ_le_succ (Nat.le_of_lt hplace))]
    simp only [Nat.lt_succ_iff, bucketOf_le_iff hsorted hbound]
  mean_between hsum hsome low high hspans :=
    ⟨le_mean bounds hsum hsome fun span hspan => (hspans span hspan).1,
      fun hlength => mean_le bounds hsum hlength fun span hspan => (hspans span hspan).2⟩

/-- Whatever its bounds are, a histogram tells of the samples that were recorded in it, in whole microseconds, or
in as many as fit into a word. It would be the same had they been recorded in another order. -/
theorem recordAll_tells (bounds : List UInt64) (spans : List Span) :
    (∀ span ∈ spans, span.microseconds.toNat = min (span.nanoseconds / 1000) (2 ^ 64 - 1)) ∧
      ((ofBounds bounds).recordAll spans).Tells bounds spans ∧
      ∀ spans', spans.Perm spans' →
        (ofBounds bounds).recordAll spans' = (ofBounds bounds).recordAll spans := by
  refine ⟨fun span _ => span.toNat_microseconds, tells_recordAll bounds spans, fun spans' hperm => ?_⟩
  have hsum : latencySum spans' = latencySum spans := (hperm.map _).sum_eq.symm
  rw [recordAll_ofBounds, recordAll_ofBounds, countsOf, countsOf, countAt_perm hperm, hperm.length_eq, hsum]

/-- Samples on a bound, between two bounds and above all of them. -/
theorem recordAll_tells_three :
    let spans := [10000, 50000, 1000000].map Span.mk
    let histogram := (ofBounds [10, 100]).recordAll spans
    histogram.counts = [1, 1, 1] ∧ histogram.sum = 1060 ∧
      (([10, 100] : List UInt64).Pairwise (· ≤ ·) ∧ (histogram.counts.take 2).sum =
        UInt64.ofNat (spans.countP fun span => span.microseconds ≤ 100)) ∧
      (latencySum spans < 2 ^ 64 ∧ spans.length ≤ 2 ^ 64 ∧ 10 ≤ histogram.mean ∧ histogram.mean ≤ 1000) ∧
      (spans.Perm spans.reverse ∧ (ofBounds [10, 100]).recordAll spans.reverse = histogram) := by
  intro spans histogram
  obtain ⟨-, htells, hperm⟩ := recordAll_tells [10, 100] spans
  have hsorted : ([10, 100] : List UInt64).Pairwise (· ≤ ·) := by decide
  obtain ⟨hlow, hhigh⟩ := htells.mean_between (by decide) (by decide) 10 1000 (by decide)
  exact ⟨by decide, by decide, ⟨hsorted, htells.cumulative hsorted 1 100 rfl⟩,
    ⟨by decide, by decide, hlow, hhigh (by decide)⟩, (List.reverse_perm spans).symm,
    hperm _ (List.reverse_perm spans).symm⟩

/-- One more sample than there are words: two of a microsecond, and as many of none as bring the count of all of
them round to one. -/
theorem not_mean_between :
    ¬ ∀ (bounds : List UInt64) (spans : List Span), latencySum spans < 2 ^ 64 → spans ≠ [] →
      ∀ low high, (∀ span ∈ spans, low ≤ span.microseconds ∧ span.microseconds ≤ high) →
        low ≤ ((ofBounds bounds).recordAll spans).mean ∧
          ((ofBounds bounds).recordAll spans).mean ≤ high := by
  intro hclaim
  obtain ⟨n, hn⟩ : ∃ n : Nat, n = 2 ^ 64 - 1 := ⟨_, rfl⟩
  have hnone : (Span.mk 0).microseconds = 0 := by decide
  have hone : (Span.mk 1000).microseconds = 1 := by decide
  have hsum : latencySum (List.replicate n (Span.mk 0) ++ List.replicate 2 (Span.mk 1000)) = 2 := by
    simp [latencySum, hnone, hone]
  have hsmall : latencySum (List.replicate n (Span.mk 0) ++ List.replicate 2 (Span.mk 1000)) < 2 ^ 64 := by
    rw [hsum]
    decide
  obtain ⟨-, hmean⟩ := hclaim [] _ hsmall (by simp) 0 1 fun span hspan => by
    rcases List.mem_append.1 hspan with hspan | hspan
    · rw [List.eq_of_mem_replicate hspan, hnone]
      decide
    · rw [List.eq_of_mem_replicate hspan, hone]
      decide
  have hcount : (n + 2) % 2 ^ 64 = 1 := by omega
  rw [UInt64.le_iff_toNat_le, toNat_mean [] hsmall, hsum, List.length_append, List.length_replicate,
    List.length_replicate, hcount] at hmean
  exact absurd hmean (by decide)

end Telemetry.Histogram

end LineStore
