import Mathlib.Algebra.GroupWithZero.Nat
import Mathlib.Data.List.Perm.Basic

/-!
How counts over a list change where one of its elements is replaced, how the counts of a list that is sorted
into places add up, and what is left of a list of which some elements are taken out.
-/

namespace LineStore

variable {α : Type} {l : List α} {i : Nat} {old : α}

/-- A list before and after an element is replaced is this element and the same others. -/
theorem exists_perm_set (h : l[i]? = some old) :
    ∃ others, l.Perm (old :: others) ∧ ∀ new, (l.set i new).Perm (new :: others) := by
  obtain ⟨hi, rfl⟩ := List.getElem?_eq_some_iff.1 h
  exact ⟨l.eraseIdx i, (List.getElem_cons_eraseIdx_perm hi).symm, List.set_perm_cons_eraseIdx hi⟩

/-- A count loses the old element and gains the new one. -/
theorem countP_set_add (p : α → Bool) (new : α) (h : l[i]? = some old) :
    (l.set i new).countP p + (p old).toNat = l.countP p + (p new).toNat := by
  obtain ⟨others, hold, hnew⟩ := exists_perm_set h
  rw [(hnew new).countP_eq, hold.countP_eq, List.countP_cons, List.countP_cons]
  cases p old <;> cases p new <;> simp

/-- What the elements hold loses what the old one held and gains what the new one holds. -/
theorem flatMap_set_perm {β : Type} (f : α → List β) (new : α) (h : l[i]? = some old) :
    (f old ++ (l.set i new).flatMap f).Perm (f new ++ l.flatMap f) := by
  obtain ⟨others, hold, hnew⟩ := exists_perm_set h
  have hbefore := (hold.flatMap_right f).append_left (f new)
  have hafter := ((hnew new).flatMap_right f).append_left (f old)
  rw [List.flatMap_cons] at hbefore hafter
  refine hafter.trans (.trans ?_ hbefore.symm)
  rw [← List.append_assoc, ← List.append_assoc]
  exact List.perm_append_comm.append_right _

theorem countP_lt_succ (f : α → Nat) (n : Nat) (l : List α) :
    (l.countP fun a => f a < n + 1) = (l.countP fun a => f a < n) + l.countP fun a => f a = n := by
  induction l with
  | nil => rfl
  | cons a l ih =>
    simp only [List.countP_cons, ih, decide_eq_true_eq]
    rcases Nat.lt_trichotomy (f a) n with h | h | h
    · rw [if_pos (Nat.lt_succ_of_lt h), if_pos h, if_neg (Nat.ne_of_lt h)]
      omega
    · rw [if_pos (h ▸ Nat.lt_succ_self _), if_neg (h ▸ Nat.lt_irrefl _), if_pos h]
      omega
    · rw [if_neg (by omega), if_neg (by omega), if_neg (by omega)]
      omega

/-- Counts by place add up to the count of what is before a place. -/
theorem sum_countP_eq (f : α → Nat) (l : List α) (n : Nat) :
    ((List.range n).map fun place => l.countP fun a => f a = place).sum =
      l.countP fun a => f a < n := by
  induction n with
  | zero => simp
  | succ n ih =>
    rw [List.range_succ, List.map_append, List.sum_append, ih, List.map_singleton, List.sum_singleton,
      countP_lt_succ]

/-- The elements of a list that are marked. -/
def pick (marks : List Bool) (l : List α) : List α :=
  ((l.zip marks).filter Prod.snd).map Prod.fst

@[simp] theorem pick_cons_true (marks : List Bool) (a : α) (l : List α) :
    pick (true :: marks) (a :: l) = a :: pick marks l := rfl

@[simp] theorem pick_cons_false (marks : List Bool) (a : α) (l : List α) :
    pick (false :: marks) (a :: l) = pick marks l := rfl

end LineStore
