import LineStore.Lock.Crowd
import LineStore.Store.Operation

/-!
Threads that work on one store at the same time.

Each bucket is a chain behind a lock of its own. An operation asks for the lock of its bucket, looks its
key up in one step, acts on what it saw in a later one, and gives the lock up. The steps of different
threads mix in any order.
-/

namespace LineStore.Store

def Operation.access : Operation → Lock.Access
  | search _ => .read
  | _ => .write

/-- What an operation answers that found this value of its key, and what it makes of the chain. -/
def Chain.apply (chain : Chain) (found? : Option String) : Operation → Outcome × Chain
  | .insert key value =>
    match found? with
    | some _ => (.insert false, chain)
    | none => (.insert true, chain.push { key, value })
  | .search _ => (.search found?, chain)
  | .update key value =>
    match found? with
    | some _ => (.update true, chain.replace key value)
    | none => (.update false, chain)
  | .delete key =>
    match found? with
    | some _ => (.delete true, chain.erase key)
    | none => (.delete false, chain)

/-- A bucket and the threads around its lock. -/
structure Shard where
  crowd : Lock.Crowd
  chain : Chain := {}
deriving DecidableEq, Repr

/-- How far a thread is with the first of its operations. -/
inductive Progress where
  | idle
  /-- It waits for the lock or has it, and has not looked. -/
  | entered
  /-- It has looked, and the key had this value. -/
  | looked (found? : Option String)
  | acted (outcome : Outcome)
deriving DecidableEq, Repr

/-- A thread. -/
structure Caller where
  /-- The operations that are not finished. -/
  todo : List Operation
  progress : Progress := .idle
  /-- The answers to those that are, oldest first. -/
  outcomes : List Outcome := []
deriving DecidableEq, Repr

/-- A store and the threads that work on it. -/
structure Contention where
  shards : List Shard
  callers : List Caller
  /-- The operations that were granted their lock, with their threads, in the order of the grants. No step
  looks at this list. -/
  grants : List (Nat × Operation) := []
deriving DecidableEq, Repr

namespace Contention

/-- A step of a thread. -/
inductive Move where
  | enter (thread : Nat)
  | resume (thread : Nat)
  /-- It wakes although nobody called it. -/
  | rouse (thread : Nat)
  | look (thread : Nat)
  | change (thread : Nat)
  /-- It gives up the lock and is done with the operation. -/
  | leave (thread : Nat)
deriving DecidableEq, Repr

/-- An empty store of `buckets` buckets, each behind a lock for `capacity` queued writers, and threads
with these operations before them. -/
def start (buckets capacity : Nat) (todos : List (List Operation)) : Contention where
  shards := List.replicate buckets { crowd := .ofSize capacity todos.length }
  callers := todos.map fun todo => { todo }

/-- The place of the shard of an operation. -/
def place (contention : Contention) (operation : Operation) : Nat :=
  bucketOf operation.key contention.shards.length

/-- The thread of a number, the operation it is about, and the shard of that. -/
def current? (contention : Contention) (thread : Nat) : Option (Caller × Operation × Shard) := do
  let caller ← contention.callers[thread]?
  let operation ← caller.todo.head?
  let shard ← contention.shards[contention.place operation]?
  return (caller, operation, shard)

/-- The threads and shards after a thread and the shard of an operation have changed. -/
def set (contention : Contention) (thread : Nat) (caller : Caller) (operation : Operation)
    (shard : Shard) : Contention :=
  { contention with
    callers := contention.callers.set thread caller
    shards := contention.shards.set (contention.place operation) shard }

/-- Lets an action happen at the lock of a thread's operation, and notes it if it granted the lock. -/
def lock (contention : Contention) (thread : Nat) (action : Lock.Action) : Option Contention := do
  let (caller, operation, shard) ← contention.current? thread
  let crowd ← shard.crowd.act action
  let granted := ¬ (shard.crowd.stageOf thread).holds ∧ (crowd.stageOf thread).holds
  let after := contention.set thread { caller with progress := .entered } operation { shard with crowd }
  return { after with
    grants := contention.grants ++ if granted then [(thread, operation)] else [] }

/-- What a step leads to, or `none` if it is not possible. -/
def act (contention : Contention) : Move → Option Contention
  | .enter thread => do
    let (caller, operation, _) ← contention.current? thread
    guard (caller.progress = .idle)
    contention.lock thread (.acquire thread operation.access)
  | .resume thread => contention.lock thread (.resume thread)
  | .rouse thread => contention.lock thread (.rouse thread)
  | .look thread => do
    let (caller, operation, shard) ← contention.current? thread
    guard (caller.progress = .entered ∧ (shard.crowd.stageOf thread).holds)
    let found? := shard.chain.find? operation.key
    return contention.set thread { caller with progress := .looked found? } operation shard
  | .change thread => do
    let (caller, operation, shard) ← contention.current? thread
    match caller.progress with
    | .looked found? =>
      let (outcome, chain) := shard.chain.apply found? operation
      return contention.set thread { caller with progress := .acted outcome } operation
        { shard with chain }
    | _ => none
  | .leave thread => do
    let (caller, operation, shard) ← contention.current? thread
    match caller.progress with
    | .acted outcome =>
      let crowd ← shard.crowd.act (.release thread)
      return contention.set thread
        { todo := caller.todo.tail, outcomes := caller.outcomes ++ [outcome] }
        operation { shard with crowd }
    | _ => none

/-- The states that a store and its threads can come to. -/
inductive Reachable (buckets capacity : Nat) (todos : List (List Operation)) : Contention → Prop where
  | start : Reachable buckets capacity todos (start buckets capacity todos)
  | step {before after : Contention} {move : Move} : Reachable buckets capacity todos before →
      before.act move = some after → Reachable buckets capacity todos after

/-- Whether every operation is finished. -/
def Finished (contention : Contention) : Prop :=
  ∀ caller ∈ contention.callers, caller.todo = []

/-- The operations in the order in which they were granted their locks. -/
def order (contention : Contention) : List Operation :=
  contention.grants.map Prod.snd

/-- Of answers to the operations in that order, those to the operations of a thread. -/
def outcomesOf (contention : Contention) (outcomes : List Outcome) (thread : Nat) : List Outcome :=
  ((contention.grants.zip outcomes).filter fun answered => answered.1.1 = thread).map Prod.snd

end Contention

end LineStore.Store
