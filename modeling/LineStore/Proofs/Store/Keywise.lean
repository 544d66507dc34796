import LineStore.Proofs.Store.Census
import Mathlib.Data.Set.Function

/-!
An operation asks for the value of its key, and gives a value to this key alone. So stores that have the same
values for some keys are told apart by no operation on these, and no operation on other keys takes them apart.
-/

namespace LineStore.Store

/-- What an operation answers, and the value that its key has afterwards, going by the one that it has. -/
def Operation.effect : Operation → Option String → Outcome × Option String
  | insert _ value, none => (.insert true, some value)
  | insert _ _, some old => (.insert false, some old)
  | search _, value? => (.search value?, value?)
  | update _ value, some _ => (.update true, some value)
  | update _ _, none => (.update false, none)
  | delete _, some _ => (.delete true, none)
  | delete _, none => (.delete false, none)

namespace Contents

variable {contents other : Contents} {operation : Operation} {key : String} {keys : Set String}

theorem set_of_ne {k : String} (h : k ≠ key) (value? : Option String) :
    contents.set k value? key = contents key :=
  if_neg h.symm

theorem set_eq_self {value? : Option String} (h : contents key = value?) :
    contents.set key value? = contents := by
  funext k
  by_cases hkey : k = key
  · rw [hkey, set, if_pos rfl, h]
  · exact set_of_ne (Ne.symm hkey) value?

theorem perform_eq (contents : Contents) (operation : Operation) :
    contents.perform operation =
      ((operation.effect (contents operation.key)).1,
        contents.set operation.key (operation.effect (contents operation.key)).2) := by
  cases operation with
  | search key => exact Prod.ext rfl (set_eq_self rfl).symm
  | insert key value | update key value | delete key =>
    cases hkey : contents key <;>
      simp [perform, hkey, Operation.key, Operation.effect, set_eq_self hkey]

theorem perform_of_key_ne (h : operation.key ≠ key) :
    (contents.perform operation).2 key = contents key := by
  rw [perform_eq]
  exact set_of_ne h _

theorem eqOn_perform_of_notMem (h : operation.key ∉ keys) :
    Set.EqOn (contents.perform operation).2 contents keys :=
  fun _ hkey => perform_of_key_ne fun heq => h (heq ▸ hkey)

theorem eqOn_set (h : Set.EqOn contents other keys) (key : String) (value? : Option String) :
    Set.EqOn (contents.set key value?) (other.set key value?) keys := by
  intro k hk
  rw [set, set, h hk]

theorem perform_eqOn (h : Set.EqOn contents other keys) (hkey : operation.key ∈ keys) :
    (contents.perform operation).1 = (other.perform operation).1 ∧
      Set.EqOn (contents.perform operation).2 (other.perform operation).2 keys := by
  rw [perform_eq contents, perform_eq other, h hkey]
  exact ⟨rfl, eqOn_set h _ _⟩

end Contents

/-! ### Stores -/

/-- Whether two stores are sound and have the same values for some keys. -/
structure Agree (keys : Set String) (store other : Store) : Prop where
  left : store.Sound
  right : other.Sound
  eqOn : Set.EqOn store.contents other.contents keys

namespace Agree

variable {store other : Store} {operation : Operation} {keys : Set String}

theorem refl (h : store.Sound) : Agree keys store store :=
  ⟨h, h, Set.eqOn_refl _ _⟩

/-- An operation on one of the keys is answered alike. -/
theorem perform (h : Agree keys store other) (hkey : operation.key ∈ keys) :
    (store.perform operation).1 = (other.perform operation).1 ∧
      Agree keys (store.perform operation).2 (other.perform operation).2 := by
  obtain ⟨houtcome, hcontents, hsound⟩ := h.left.perform operation
  obtain ⟨houtcome', hcontents', hsound'⟩ := h.right.perform operation
  obtain ⟨hsame, heqOn⟩ := Contents.perform_eqOn h.eqOn hkey
  rw [houtcome, houtcome']
  exact ⟨hsame, hsound, hsound', hcontents ▸ hcontents' ▸ heqOn⟩

/-- Another operation is not noticed. -/
theorem perform_left (h : Agree keys store other) (hkey : operation.key ∉ keys) :
    Agree keys (store.perform operation).2 other := by
  obtain ⟨-, hcontents, hsound⟩ := h.left.perform operation
  refine ⟨hsound, h.right, ?_⟩
  rw [hcontents]
  exact (Contents.eqOn_perform_of_notMem hkey).trans h.eqOn

theorem filter_key_eq (h : Agree keys store other) {key : String} (hkey : key ∈ keys) :
    store.entries.filter (·.key = key) = other.entries.filter (·.key = key) := by
  rw [h.left.filter_key_eq, h.right.filter_key_eq, h.eqOn hkey]

end Agree

end LineStore.Store
