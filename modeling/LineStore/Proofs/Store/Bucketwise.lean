import LineStore.Proofs.Store.Refinement
import LineStore.Store.Contention

/-!
An operation on a store is a look into one bucket and a change of that bucket. All else stays as it is.
-/

namespace LineStore.Store

variable {chain : Chain}

/-- The answer of an operation that looks and acts without a pause, and the bucket after it. -/
def Chain.perform (chain : Chain) (operation : Operation) : Outcome × Chain :=
  chain.apply (chain.find? operation.key) operation

theorem Chain.perform_of_read {operation : Operation} (h : operation.access = .read) :
    chain.perform operation = (.search (chain.find? operation.key), chain) := by
  cases operation with
  | search key => rfl
  | insert key value | update key value | delete key => cases h

theorem setChain_chainOf (store : Store) (key : String) :
    store.setChain key (store.chainOf key) = store := by
  obtain ⟨chains, lastTotal, hpos⟩ := store
  simp only [setChain, chainOf, Fin.getElem_fin, Array.set_getElem_self]

/-- An operation does to a store what it does to the bucket of its key. -/
theorem perform_eq_setChain (store : Store) (operation : Operation) :
    store.perform operation =
      (((store.chainOf operation.key).perform operation).1,
        store.setChain operation.key ((store.chainOf operation.key).perform operation).2) := by
  have hcontains : ∀ key, (store.chainOf key).contains key = ((store.chainOf key).find? key).isSome := by
    intro key
    rw [Bool.eq_iff_iff, Chain.contains_iff_find?, Option.isSome_iff_exists]
  cases operation with
  | search key => exact Prod.ext rfl (setChain_chainOf store key).symm
  | insert key value | update key value | delete key =>
    simp only [perform, insert, update, delete, hcontains, Chain.perform, Operation.key, Chain.apply]
    cases hfind : (store.chainOf key).find? key with
    | none => simp [setChain_chainOf]
    | some old => simp [setChain_chainOf]

theorem bucketCount_perform (store : Store) (operation : Operation) :
    (store.perform operation).2.bucketCount = store.bucketCount := by
  rw [perform_eq_setChain]
  exact bucketCount_setChain ..

theorem lastTotal_perform (store : Store) (operation : Operation) :
    (store.perform operation).2.lastTotal = store.lastTotal := by
  rw [perform_eq_setChain]
  rfl

theorem chains_perform (store : Store) (operation : Operation) (i : Nat) :
    (store.perform operation).2.chains[i]? =
      if bucketOf operation.key store.bucketCount = i then
        some ((store.chainOf operation.key).perform operation).2
      else store.chains[i]? := by
  rw [perform_eq_setChain]
  exact getElem?_setChain ..

end LineStore.Store
