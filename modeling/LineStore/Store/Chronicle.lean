import LineStore.Store.Operation

/-!
When the entries of a store were made.

A chronicle follows a sequence of operations and keeps, for every key that has an entry, the number of the
operation that made it. It knows nothing of buckets or chains, and tells in which order a dump has to
list the entries.
-/

namespace LineStore.Store

/-- An entry of a key: its value and the number of the operation that made it. -/
structure Record where
  value : String
  birth : Nat
deriving DecidableEq, Repr

/-- The entries of all keys. -/
structure Chronicle where
  record? : String → Option Record := fun _ => none

namespace Chronicle

def set (chronicle : Chronicle) (key : String) (record? : Option Record) : Chronicle where
  record? := fun k => if k = key then record? else chronicle.record? k

/-- The chronicle after the operation of this number. An update keeps the birth of an entry, and a key
that was taken out and comes back is born again. -/
def note (chronicle : Chronicle) (number : Nat) : Operation → Chronicle
  | .insert key value =>
    match chronicle.record? key with
    | some _ => chronicle
    | none => chronicle.set key (some { value, birth := number })
  | .search _ => chronicle
  | .update key value =>
    chronicle.set key ((chronicle.record? key).map fun record => { record with value })
  | .delete key => chronicle.set key none

/-- The chronicle of operations on an empty store. -/
def ofOperations (operations : List Operation) : Chronicle :=
  operations.zipIdx.foldl (fun chronicle numbered => chronicle.note numbered.2 numbered.1) {}

/-- The number of the operation that made the entry of a key, or `0` if it has none. -/
def birth (chronicle : Chronicle) (key : String) : Nat :=
  ((chronicle.record? key).map Record.birth).getD 0

/-- Whether these are the entries of a bucket, latest first: the entries of just the keys that belong
there, each with its value, and each born later than the ones after it. -/
structure Lists (chronicle : Chronicle) (bucket count : Nat) (entries : List Entry) : Prop where
  mem_iff : ∀ entry, entry ∈ entries ↔
    bucketOf entry.key count = bucket ∧
      (chronicle.record? entry.key).map Record.value = some entry.value
  latest_first : entries.Pairwise fun entry other => chronicle.birth other.key < chronicle.birth entry.key

end Chronicle

end LineStore.Store
