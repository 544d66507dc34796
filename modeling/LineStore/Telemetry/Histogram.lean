import LineStore.Span

/-!
A histogram of latencies, in machine words that wrap around.

Each sample is counted in the bucket of the first bound, in list order, that it does not exceed, and in
one more bucket at the end if it exceeds them all. The bounds need not be in order.
-/

namespace LineStore.Telemetry

/-- Counts of samples by latency, in microseconds. -/
structure Histogram where
  bounds : List UInt64
  /-- One count for each bound, and one for the samples above all of them. -/
  counts : List UInt64
  samples : UInt64 := 0
  sum : UInt64 := 0
deriving DecidableEq, Repr

namespace Histogram

def requestBounds : List UInt64 := [1, 2, 5, 10, 20, 50, 100, 200, 500, 1000, 2000, 5000]

def ofBounds (bounds : List UInt64) : Histogram :=
  { bounds, counts := List.replicate (bounds.length + 1) 0 }

/-- The place of the bucket of a latency. -/
def bucketOf (bounds : List UInt64) (latency : UInt64) : Nat :=
  (bounds.findIdx? (latency ≤ ·)).getD bounds.length

/-- One word of a histogram that a sample changes. -/
inductive Update where
  | sample
  /-- The latencies add up to this much more. -/
  | sum (latency : UInt64)
  /-- The bucket of this latency holds one sample more. -/
  | bucket (latency : UInt64)
deriving DecidableEq, Repr

def apply (histogram : Histogram) : Update → Histogram
  | .sample => { histogram with samples := histogram.samples + 1 }
  | .sum latency => { histogram with sum := histogram.sum + latency }
  | .bucket latency =>
    { histogram with
      counts := histogram.counts.modify (bucketOf histogram.bounds latency) (· + 1) }

/-- The changes that a sample makes, in their order. -/
def updates (span : Span) : List Update :=
  [.sample, .sum span.microseconds, .bucket span.microseconds]

def record (histogram : Histogram) (span : Span) : Histogram :=
  (updates span).foldl apply histogram

/-- The mean latency, rounded down, or `0` without samples. -/
def mean (histogram : Histogram) : UInt64 :=
  if histogram.samples = 0 then 0 else histogram.sum / histogram.samples

end Histogram

end LineStore.Telemetry
