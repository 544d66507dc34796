import LineStore.Store.Operation

/-!
The contents of a store: a finite map from keys to values, without buckets.

`Contents.perform` is what the operations mean. It knows nothing of hashing or of the order of entries.
-/

namespace LineStore.Store

/-- The values of all keys. -/
abbrev Contents := String → Option String

namespace Contents

def empty : Contents := fun _ => none

def set (contents : Contents) (key : String) (value? : Option String) : Contents :=
  fun k => if k = key then value? else contents k

/-- What an operation answers and leaves behind. -/
def perform (contents : Contents) : Operation → Outcome × Contents
  | .insert key value =>
    match contents key with
    | some _ => (.insert false, contents)
    | none => (.insert true, contents.set key (some value))
  | .search key => (.search (contents key), contents)
  | .update key value =>
    match contents key with
    | some _ => (.update true, contents.set key (some value))
    | none => (.update false, contents)
  | .delete key =>
    match contents key with
    | some _ => (.delete true, contents.set key none)
    | none => (.delete false, contents)

/-- The answers to a sequence of operations, and the contents after them. -/
def performAll (contents : Contents) : List Operation → List Outcome × Contents
  | [] => ([], contents)
  | operation :: rest =>
    let (outcome, contents) := contents.perform operation
    let (outcomes, contents) := contents.performAll rest
    (outcome :: outcomes, contents)

end Contents

/-- What is in a store. -/
def contents (store : Store) : Contents := store.search

/-- The answers of a store to a sequence of operations, and the store after them. -/
def performAll (store : Store) : List Operation → List Outcome × Store
  | [] => ([], store)
  | operation :: rest =>
    let (outcome, store) := store.perform operation
    let (outcomes, store) := store.performAll rest
    (outcome :: outcomes, store)

end LineStore.Store
