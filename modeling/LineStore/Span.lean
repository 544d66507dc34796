/-!
Spans of time, in whole nanoseconds.
-/

namespace LineStore

/-- A length of time. -/
structure Span where
  nanoseconds : Nat := 0
deriving DecidableEq, Repr

namespace Span

def ofMilliseconds (n : Nat) : Span :=
  { nanoseconds := n * 1000000 }

def ofSeconds (seconds : Nat) (nanoseconds : Nat := 0) : Span :=
  { nanoseconds := seconds * 1000000000 + nanoseconds }

def milliseconds (span : Span) : Nat :=
  span.nanoseconds / 1000000

/-- The whole microseconds of a span, or the greatest word if there are more of them. -/
def microseconds (span : Span) : UInt64 :=
  UInt64.ofNat (min (span.nanoseconds / 1000) (UInt64.size - 1))

/-- The units of time in which a span is written, longest first, with their length in nanoseconds. -/
def units : List (Nat × String) :=
  [(1000000000, "s"), (1000000, "ms"), (1000, "µs")]

/-- The digits of `n / scale`, where `n < 10 * scale` and `scale` is a power of ten, less the zeros at
their end. -/
def fraction (n scale : Nat) : List Char :=
  if h : n = 0 ∨ scale = 0 then []
  else Char.ofNat ('0'.toNat + n / scale) :: fraction (n % scale) (scale / 10)
termination_by scale
decreasing_by omega

/-- A span in the longest unit of which it holds at least one, as a decimal number without idle zeros. -/
def text (span : Span) : String :=
  match units.find? fun unit => unit.1 ≤ span.nanoseconds with
  | none => s!"{span.nanoseconds}ns"
  | some (length, name) =>
    let digits := String.ofList (fraction (span.nanoseconds % length) (length / 10))
    let point := if digits.isEmpty then "" else "."
    s!"{span.nanoseconds / length}{point}{digits}{name}"

example : (ofMilliseconds 2500).text = "2.5s" := by cbv

example : (ofMilliseconds 15).text = "15ms" := by cbv

example : (ofMilliseconds 0).text = "0ns" := by cbv

end Span

end LineStore
