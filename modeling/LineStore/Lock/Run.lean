import LineStore.Lock.Crowd

/-!
Runs: what happens to a lock and its threads, one step after another.

A run goes on for ever, but nothing need happen in a step. So whatever can happen in finitely many steps is
how some run begins.
-/

namespace LineStore.Lock

/-- A run of a lock and its threads, from the free lock on. -/
structure Run (capacity count : Nat) where
  state : Nat → Crowd
  /-- What happens in a step, if anything does. -/
  action? : Nat → Option Action
  start : state 0 = .ofSize capacity count
  acts : ∀ n action, action? n = some action → (state n).act action = some (state (n + 1))
  rests : ∀ n, action? n = none → state (n + 1) = state n

namespace Run

variable {capacity count : Nat}

/-- What a script leads to in `n` steps, if all of it that is possible happens. -/
def follow (capacity count : Nat) (script : Nat → Option Action) : Nat → Crowd
  | 0 => .ofSize capacity count
  | n + 1 =>
    let crowd := follow capacity count script n
    ((script n).bind crowd.act).getD crowd

/-- The run in which all of a script happens that is possible. -/
def ofScript (capacity count : Nat) (script : Nat → Option Action) : Run capacity count where
  state := follow capacity count script
  action? n :=
    (script n).filter fun action => ((follow capacity count script n).act action).isSome
  start := rfl
  acts n action h := by
    obtain ⟨hscript, hpossible⟩ := Option.filter_eq_some_iff.1 h
    obtain ⟨after, hafter⟩ := Option.isSome_iff_exists.1 hpossible
    simp [follow, hscript, hafter]
  rests n h := by
    cases hscript : script n with
    | none => simp [follow, hscript]
    | some action =>
      have hnone : (follow capacity count script n).act action = none := by
        simpa [hscript, Option.filter] using h
      simp [follow, hscript, hnone]

/-- Where a thread stands after `n` steps. -/
def stageAt (run : Run capacity count) (n thread : Nat) : Stage :=
  (run.state n).stageOf thread

/-- Whether a step brings a thread to a stage of this kind, at which it was not before. -/
def Begins (run : Run capacity count) (kind : Stage → Bool) (thread n : Nat) : Prop :=
  kind (run.stageAt n thread) = false ∧ kind (run.stageAt (n + 1) thread) = true

/-- Whether a reader that announced itself in the step `since` is still there after `n` steps: it has not
given up the lock. -/
def Present (run : Run capacity count) (reader since n : Nat) : Prop :=
  run.action? since = some (.acquire reader .read) ∧ since < n ∧
    ∀ k, since < k → k < n → run.action? k ≠ some (.release reader)

end Run

end LineStore.Lock
