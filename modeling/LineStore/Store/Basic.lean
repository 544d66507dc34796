import LineStore.Fault
import LineStore.Lock.State
import LineStore.Store.Chain
import LineStore.Store.Placement

/-!
The store: pairs of keys and values in a fixed number of buckets.

Each operation touches the bucket of its key and no other. Storage is taken to suffice for every entry;
only a number of buckets, or a lock for each, can be more than there is room for.
-/

namespace LineStore

/-- A store, by buckets. -/
structure Store where
  chains : Array Store.Chain
  /-- How many entries the last dump listed. -/
  lastTotal : Nat := 0
  /-- A key always has a bucket. -/
  size_pos : 0 < chains.size
deriving DecidableEq, Repr

namespace Store

/-- The least number of buckets for which there is no room in memory. -/
def unallocatable : Nat := 0x1000000000000000

/-- A store of `count` buckets, all empty. -/
def empty (count : Nat) (h : 0 < count) : Store where
  chains := Array.replicate count {}
  size_pos := by simpa using h

/-- An empty store of `count` buckets, each behind a lock with these options. -/
def open? (count : Nat) (locks : Lock.Options) : Except Fault Store := do
  if h : 0 < count then
    if unallocatable ≤ count then throw .outOfMemory
    locks.check
    return empty count h
  else throw .invalidInput

def bucketCount (store : Store) : Nat :=
  store.chains.size

def home (store : Store) (key : String) : Fin store.chains.size :=
  ⟨bucketOf key store.chains.size, bucketOf_lt key store.size_pos⟩

/-- The chain in which the entry of a key is, if it has one. -/
def chainOf (store : Store) (key : String) : Chain :=
  store.chains[store.home key]

/-- Puts another chain in the place of the one of `key`. -/
def setChain (store : Store) (key : String) (chain : Chain) : Store where
  chains := store.chains.set (store.home key) chain
  lastTotal := store.lastTotal
  size_pos := by simpa using store.size_pos

/-- The number of entries, by the counts of the buckets. -/
def size (store : Store) : Nat :=
  (store.chains.toList.map Chain.count).foldr (· + ·) 0

def isEmpty (store : Store) : Bool :=
  store.size = 0

def search (store : Store) (key : String) : Option String :=
  (store.chainOf key).find? key

/-- Adds a pair unless the key has an entry, and says whether it did. -/
def insert (store : Store) (key value : String) : Bool × Store :=
  let chain := store.chainOf key
  if chain.contains key then (false, store)
  else (true, store.setChain key (chain.push { key, value }))

/-- Replaces the value of a key that has an entry, and says whether it has one. -/
def update (store : Store) (key value : String) : Bool × Store :=
  let chain := store.chainOf key
  if chain.contains key then (true, store.setChain key (chain.replace key value))
  else (false, store)

/-- Takes out the entry of a key, and says whether it had one. -/
def delete (store : Store) (key : String) : Bool × Store :=
  let chain := store.chainOf key
  if chain.contains key then (true, store.setChain key (chain.erase key))
  else (false, store)

/-- A store for display: its geometry, not its contents. -/
def text (store : Store) : String :=
  s!"ShardedTable \x7b bucket_count: {store.bucketCount}, .. \x7d"

end Store

end LineStore
