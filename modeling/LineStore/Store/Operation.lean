import LineStore.Store.Basic

/-!
Operations on a store as data, and engines: whatever can be asked to carry them out.

An engine may do the work, refuse it with a fault, or break down in the middle of a call. The store
itself always does the work.
-/

namespace LineStore.Store

/-- One call of a store. -/
inductive Operation where
  | insert (key value : String)
  | search (key : String)
  | update (key value : String)
  | delete (key : String)
deriving DecidableEq, Repr

/-- What an operation that was carried out answers. -/
inductive Outcome where
  | insert (created : Bool)
  | search (value? : Option String)
  | update (found : Bool)
  | delete (found : Bool)
deriving DecidableEq, Repr

def Operation.key : Operation → String
  | insert key _ | search key | update key _ | delete key => key

def perform (store : Store) : Operation → Outcome × Store
  | .insert key value =>
    let (created, store) := store.insert key value
    (.insert created, store)
  | .search key => (.search (store.search key), store)
  | .update key value =>
    let (found, store) := store.update key value
    (.update found, store)
  | .delete key =>
    let (found, store) := store.delete key
    (.delete found, store)

/-- How a call of an engine ends. -/
inductive Verdict where
  | done (outcome : Outcome)
  | refused (fault : Fault)
  /-- The engine broke down and gave no answer. -/
  | broken
deriving DecidableEq, Repr

/-- Something that carries out operations and remembers a state of type `σ` between them. -/
abbrev Engine (σ : Type) := Operation → σ → Verdict × σ

/-- The engine that is the store and nothing else. -/
def engine : Engine Store := fun operation store =>
  let (outcome, store) := store.perform operation
  (.done outcome, store)

/-- The kinds of operations. -/
inductive Operation.Kind where
  | insert
  | search
  | update
  | delete
deriving DecidableEq, Repr

def Operation.kind : Operation → Operation.Kind
  | insert .. => .insert
  | search _ => .search
  | update .. => .update
  | delete _ => .delete

/-- When an engine does not do the work: the kinds of operations that it refuses, and why, and the key
on which it breaks down. -/
structure Trouble where
  refusals : List (Operation.Kind × Fault) := []
  fatalKey? : Option String := none
deriving DecidableEq, Repr

/-- A store behind an engine in trouble. Neither a refusal nor a breakdown touches the store. -/
def troubledEngine (trouble : Trouble) : Engine Store := fun operation store =>
  if trouble.fatalKey? = some operation.key then (.broken, store)
  else
    match trouble.refusals.lookup operation.kind with
    | some fault => (.refused fault, store)
    | none => engine operation store

/-- A store behind an engine that refuses calls now and then: the state holds, for each call to come, the
fault by which it is refused, if it is. -/
def fitfulEngine : Engine (List (Option Fault) × Store) := fun operation (refusals, store) =>
  match refusals.head?.join with
  | some fault => (.refused fault, refusals.tail, store)
  | none =>
    let (verdict, store) := engine operation store
    (verdict, refusals.tail, store)

end LineStore.Store
