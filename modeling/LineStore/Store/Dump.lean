import LineStore.Store.Basic

/-!
Dumps: what is in a store, bucket by bucket.

A dump is taken while no operation is under way, so every lock is idle in it. Empty buckets are left out.
-/

namespace LineStore.Store

/-- A bucket that is not empty. -/
structure BucketDump where
  index : Nat
  lock : Lock.Occupancy := {}
  /-- The entries, newest first. -/
  entries : List Entry
deriving DecidableEq, Repr

/-- The contents of a store. -/
structure Dump where
  total : Nat
  /-- The buckets, ascending by their index. -/
  buckets : List BucketDump
deriving DecidableEq, Repr

/-- The buckets whose count is not zero, with their places. -/
def occupiedBuckets (store : Store) : List BucketDump :=
  store.chains.toList.zipIdx.filterMap fun numbered =>
    if numbered.1.count = 0 then none
    else some { index := numbered.2, entries := numbered.1.entries }

/-- Lists the contents and remembers how many entries there were. -/
def dump (store : Store) : Dump × Store :=
  let buckets := store.occupiedBuckets
  let total := (buckets.map fun bucket => bucket.entries.length).foldr (· + ·) 0
  ({ total, buckets }, { store with lastTotal := total })

/-- The lines of an entry, each ended by a line feed. -/
def Entry.text (entry : Entry) : String :=
  s!"    Key:   {entry.key}\n    Value: {entry.value}\n"

/-- The lines of a bucket, each ended by a line feed. -/
def BucketDump.text (bucket : BucketDump) : String :=
  s!"Bucket {bucket.index}: {bucket.entries.length} entries\n" ++
    s!"  Lock State -> Read Count: {bucket.lock.readersPresent}, " ++
    s!"Write Count: {bucket.lock.writersActive}\n" ++
    String.join (bucket.entries.map Entry.text)

/-- A dump for display. Its last line is not ended. -/
def Dump.text (dump : Dump) : String :=
  s!"[Hash Table Dump] Total Entries: {dump.total}\n" ++
    String.join (dump.buckets.map BucketDump.text) ++ "End of Dump"

end LineStore.Store
