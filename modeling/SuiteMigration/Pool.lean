/-!
# Worker pools

Workers share a queue of numbered items. A waiting worker takes the next item, or stops if there is
none; a worker with an item runs the action on it; a worker with a result delivers it under the
item's number and waits again. The workers take their steps in any order, which a schedule gives.
Results are sorted into slots by number, so they come out in the order of the items.

## Main definitions

* `Worker`, `Pool` - the state of a worker and of a pool
* `Pool.step` - one step of one worker
* `Pool.run` - the steps of a schedule
* `Pool.results` - the delivered results, in the order of the items
* `fairSchedule` - a schedule under which all workers stop
-/

namespace SuiteMigration

/-- What a worker is doing. -/
inductive Worker (α β : Type)
  /-- It is about to take an item. -/
  | waiting
  /-- It has taken an item. -/
  | working (index : Nat) (item : α)
  /-- It is about to deliver the result for an item. -/
  | finished (index : Nat) (result : β)
  /-- It found the queue empty. -/
  | stopped

/-- Workers with their queue, the state they act on, and what they have delivered. -/
structure Pool (σ α β : Type) where
  /-- What the actions read and change. -/
  state : σ
  /-- The numbered items that no worker has taken. -/
  queue : List (Nat × α)
  /-- The workers. -/
  workers : List (Worker α β)
  /-- The delivered results with the numbers of their items, latest first. -/
  delivered : List (Nat × β) := []

namespace Pool

variable {σ α β : Type}

/-- A pool of waiting workers before a list of items. -/
def start (workers : Nat) (items : List α) (state : σ) : Pool σ α β where
  state := state
  queue := items.zipIdx.map fun (item, index) => (index, item)
  workers := List.replicate workers .waiting

/-- One step of one worker. -/
def step (action : α → StateM σ β) (pool : Pool σ α β) (worker : Nat) : Pool σ α β :=
  match pool.workers[worker]? with
  | some .waiting =>
    match pool.queue with
    | (index, item) :: queue =>
      { pool with queue := queue, workers := pool.workers.set worker (.working index item) }
    | [] => { pool with workers := pool.workers.set worker .stopped }
  | some (.working index item) =>
    let (result, state) := action item pool.state
    { pool with state := state, workers := pool.workers.set worker (.finished index result) }
  | some (.finished index result) =>
    { pool with
      delivered := (index, result) :: pool.delivered
      workers := pool.workers.set worker .waiting }
  | some .stopped | none => pool

/-- The steps of a schedule, which names the worker of each step. -/
def run (action : α → StateM σ β) (pool : Pool σ α β) (schedule : List Nat) : Pool σ α β :=
  schedule.foldl (step action) pool

/-- Whether all workers have stopped. -/
def IsStopped (pool : Pool σ α β) : Prop :=
  ∀ worker ∈ pool.workers, worker matches .stopped

/-- The delivered results for the first `count` numbers, in their order. -/
def results (count : Nat) (pool : Pool σ α β) : List β :=
  (List.range count).filterMap fun index => pool.delivered.lookup index

end Pool

/-- A schedule that gives every worker a turn in each round. A pool takes three steps for an item
and one for a worker to stop, and as long as a worker has not stopped a round brings at least one of
them, so all workers stop. -/
def fairSchedule (workers items : Nat) : List Nat :=
  (List.replicate (3 * items + workers) (List.range workers)).flatten

/-- Runs an action on every item by a pool of workers and gives the results in the order of the
items. A single worker takes the items one after another. -/
def runPooled (workers : Nat) (action : α → StateM σ β) (items : List α) : StateM σ (List β) :=
  let workers := min workers items.length
  if workers ≤ 1 then items.mapM action
  else fun state =>
    let pool := (Pool.start workers items state).run action (fairSchedule workers items.length)
    (pool.results items.length, pool.state)

end SuiteMigration
