/-!
The entries of one bucket, newest first, with their number kept beside them.
-/

namespace LineStore.Store

/-- A key and its value. -/
structure Entry where
  key : String
  value : String
deriving DecidableEq, Repr

/-- A bucket. `count` is kept up to date by every operation, so that the entries need not be walked. -/
structure Chain where
  entries : List Entry := []
  count : Nat := 0
deriving DecidableEq, Repr

namespace Chain

def find? (chain : Chain) (key : String) : Option String :=
  (chain.entries.find? (·.key = key)).map Entry.value

def contains (chain : Chain) (key : String) : Bool :=
  chain.entries.any (·.key = key)

def push (chain : Chain) (entry : Entry) : Chain where
  entries := entry :: chain.entries
  count := chain.count + 1

/-- Changes the value of a key, whose entry stays where it is. -/
def replace (chain : Chain) (key value : String) : Chain :=
  { chain with
    entries := chain.entries.map fun entry => if entry.key = key then { entry with value } else entry }

def erase (chain : Chain) (key : String) : Chain where
  entries := chain.entries.eraseP (·.key = key)
  count := chain.count - 1

end Chain

end LineStore.Store
