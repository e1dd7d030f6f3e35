import Mathlib.Algebra.GroupWithZero.Nat
import Mathlib.Data.List.Perm.Basic
import Mathlib.Tactic.Common
import SuiteMigration.Pool

/-!
# Pools under any schedule

A pool runs an action on each item once, in an order that the schedule decides. If the actions take
no notice of each other, that order cannot be seen: whenever all workers have stopped, the results
and the state are those of running the actions one after another.

The invariant behind this follows an item on its way. It is in the queue, in the hands of a worker,
or done; of a done item the result is with a worker or delivered, and the state is the one after the
done items, in the order in which they were done.

Under the schedule that gives every worker a turn in each round all workers do stop, because each
step of a worker that has not stopped brings the pool closer to its end.

## Main definitions

* `Independent` - two actions that take no notice of each other
* `Unordered` - a list of items whose actions do so
* `Pool.Accounts` - the invariant of a pool
* `Pool.stepsLeft` - the steps that the workers have still to take
* `runScheduled` - a run by a pool under a schedule

## Main results

* `Unordered.mapM_eq` - the results of actions that are run one after another
* `Pool.Accounts.step` - a step keeps the invariant
* `Pool.run_eq_mapM` - the results and the state of a pool that has stopped
* `Pool.isStopped_fairSchedule` - every worker stops under the fair schedule
* `runScheduled_eq`, `runPooled_eq` - a pool gives what running the actions one after another gives
-/

namespace SuiteMigration

variable {σ α β : Type}

/-! ### Actions that take no notice of each other -/

/-- On valid states, neither action changes the answer of the other, and the state after both does
not show which came first. -/
structure Independent (valid : σ → Prop) (first second : StateM σ β) : Prop where
  answerFirst : ∀ state, valid state → (first (second state).2).1 = (first state).1
  answerSecond : ∀ state, valid state → (second (first state).2).1 = (second state).1
  state : ∀ state, valid state → (second (first state).2).2 = (first (second state).2).2

/-- Independence has no direction. -/
theorem Independent.symm {valid : σ → Prop} {first second : StateM σ β}
    (independent : Independent valid first second) : Independent valid second first where
  answerFirst := independent.answerSecond
  answerSecond := independent.answerFirst
  state state isValid := (independent.state state isValid).symm

/-- The state after an action on each item, one after another. -/
def stateAfter (action : α → StateM σ β) (items : List α) (state : σ) : σ :=
  items.foldl (fun state item => (action item state).2) state

/-- The actions on the items keep states valid and take no notice of each other. -/
structure Unordered (valid : σ → Prop) (action : α → StateM σ β) (items : List α) : Prop where
  keeps : ∀ item ∈ items, ∀ state, valid state → valid (action item state).2
  pairwise : items.Pairwise fun first second => Independent valid (action first) (action second)

namespace Unordered

variable {valid : σ → Prop} {action : α → StateM σ β} {item : α} {items others : List α} {start : σ}

theorem tail (unordered : Unordered valid action (item :: items)) :
    Unordered valid action items where
  keeps other member := unordered.keeps other (List.mem_cons_of_mem item member)
  pairwise := unordered.pairwise.of_cons

/-- The order of the items does not matter. -/
theorem perm (unordered : Unordered valid action items) (perm : items.Perm others) :
    Unordered valid action others where
  keeps other member := unordered.keeps other (perm.mem_iff.2 member)
  pairwise := (perm.pairwise_iff fun independent => independent.symm).1 unordered.pairwise

theorem left (unordered : Unordered valid action (items ++ others)) :
    Unordered valid action items where
  keeps other member := unordered.keeps other (List.mem_append_left others member)
  pairwise := (List.pairwise_append.1 unordered.pairwise).1

/-- The first action answers the same before and after all others. -/
theorem answer_stateAfter (unordered : Unordered valid action (item :: items))
    (isValid : valid start) :
    (action item (stateAfter action items start)).1 = (action item start).1 := by
  induction items generalizing start with
  | nil => rfl
  | cons other items ih =>
    have swapped : Unordered valid action (other :: item :: items) :=
      unordered.perm (.swap other item items)
    calc (action item (stateAfter action items (action other start).2)).1
        = (action item (action other start).2).1 :=
          ih swapped.tail (swapped.keeps other List.mem_cons_self start isValid)
      _ = (action item start).1 :=
          (List.rel_of_pairwise_cons unordered.pairwise List.mem_cons_self).answerFirst start isValid

/-- The state after all actions does not depend on their order. -/
theorem stateAfter_perm (unordered : Unordered valid action items) (isValid : valid start)
    (perm : items.Perm others) :
    stateAfter action items start = stateAfter action others start := by
  induction perm generalizing start with
  | nil => rfl
  | cons item perm ih =>
    exact ih unordered.tail (unordered.keeps item List.mem_cons_self start isValid)
  | swap item other items =>
    have independent := List.rel_of_pairwise_cons unordered.pairwise List.mem_cons_self
    exact congrArg (stateAfter action items) (independent.state start isValid)
  | trans first second firstSame secondSame =>
    exact (firstSame unordered isValid).trans (secondSame (unordered.perm first) isValid)

/-- Run one after another, every action answers as it would from the start. -/
theorem mapM_eq (unordered : Unordered valid action items) (isValid : valid start) :
    items.mapM action start =
      (items.map fun item => (action item start).1, stateAfter action items start) := by
  induction items generalizing start with
  | nil => rfl
  | cons item items ih =>
    have answers : items.map (fun other => (action other (action item start).2).1) =
        items.map fun other => (action other start).1 := by
      refine List.map_congr_left fun other member => ?_
      exact (List.rel_of_pairwise_cons unordered.pairwise member).answerSecond start isValid
    have later := ih unordered.tail (unordered.keeps item List.mem_cons_self start isValid)
    rw [List.mapM_cons]
    show ((action item start).1 :: (items.mapM action (action item start).2).1,
      (items.mapM action (action item start).2).2) = _
    rw [later, answers]
    rfl

end Unordered

/-! ### What a step does -/

namespace Worker

/-- The item that the worker has taken and not done. -/
def item? : Worker α β → Option (Nat × α)
  | .working index item => some (index, item)
  | _ => none

/-- The result that the worker has not delivered. -/
def result? : Worker α β → Option (Nat × β)
  | .finished index result => some (index, result)
  | _ => none

/-- The steps that a worker has still to take for the item it has, and to stop. -/
def stepsLeft : Worker α β → Nat
  | .waiting => 1
  | .working _ _ => 3
  | .finished _ _ => 2
  | .stopped => 0

/-- A worker has steps left until it has stopped. -/
theorem stepsLeft_pos {worker : Worker α β} : 0 < worker.stepsLeft ↔ worker ≠ .stopped := by
  cases worker <;> simp [stepsLeft]

end Worker

namespace Pool

/-- What a step makes of the worker that takes it and of the rest of the pool. -/
inductive Moves (action : α → StateM σ β) :
    Pool σ α β → Worker α β → Pool σ α β → Worker α β → Prop
  | take (state index item queue workers newWorkers delivered) :
    Moves action ⟨state, (index, item) :: queue, workers, delivered⟩ .waiting
      ⟨state, queue, newWorkers, delivered⟩ (.working index item)
  | stop (state workers newWorkers delivered) :
    Moves action ⟨state, [], workers, delivered⟩ .waiting ⟨state, [], newWorkers, delivered⟩ .stopped
  | work (state queue workers newWorkers delivered index item) :
    Moves action ⟨state, queue, workers, delivered⟩ (.working index item)
      ⟨(action item state).2, queue, newWorkers, delivered⟩ (.finished index (action item state).1)
  | deliver (state queue workers newWorkers delivered index result) :
    Moves action ⟨state, queue, workers, delivered⟩ (.finished index result)
      ⟨state, queue, newWorkers, (index, result) :: delivered⟩ .waiting

variable {action : α → StateM σ β} {pool next : Pool σ α β} {index : Nat}

/-- The pool has stopped when all its workers have. -/
theorem isStopped_iff : pool.IsStopped ↔ ∀ worker ∈ pool.workers, worker = .stopped := by
  refine forall₂_congr fun worker _ => ?_
  cases worker <;> simp

/-- A step of a worker that has stopped, or of none, does nothing. -/
theorem step_of_stopped
    (stopped : ∀ worker, pool.workers[index]? = some worker → worker = .stopped) :
    pool.step action index = pool := by
  cases found : pool.workers[index]? with
  | none => simp only [step, found]
  | some worker =>
    obtain rfl := stopped worker found
    simp only [step, found]

/-- A step of a worker that has not stopped is one of the four moves, and no other worker takes part
in it. -/
theorem moves_step (action : α → StateM σ β) {worker : Worker α β}
    (found : pool.workers[index]? = some worker) (active : worker ≠ .stopped) :
    ∃ newWorker, Moves action pool worker (pool.step action index) newWorker ∧
      (pool.step action index).workers = pool.workers.set index newWorker := by
  obtain ⟨state, queue, workers, delivered⟩ := pool
  simp only at found
  cases worker with
  | waiting =>
    cases queue with
    | nil =>
      simp only [step, found]
      exact ⟨.stopped, .stop .., rfl⟩
    | cons entry queue =>
      obtain ⟨number, item⟩ := entry
      simp only [step, found]
      exact ⟨.working number item, .take .., rfl⟩
  | working number item =>
    simp only [step, found]
    exact ⟨.finished number (action item state).1, .work .., rfl⟩
  | finished number result =>
    simp only [step, found]
    exact ⟨.waiting, .deliver .., rfl⟩
  | stopped => exact absurd rfl active

/-- Two pools that differ by a move of one worker. The workers are given up to their order. -/
structure Advances (action : α → StateM σ β) (pool next : Pool σ α β)
    (worker newWorker : Worker α β) (others : List (Worker α β)) : Prop where
  moves : Moves action pool worker next newWorker
  workers : pool.workers.Perm (worker :: others)
  newWorkers : next.workers.Perm (newWorker :: others)

/-- A step of a worker that has not stopped advances the pool. -/
theorem advances_step (action : α → StateM σ β) {worker : Worker α β}
    (found : pool.workers[index]? = some worker) (active : worker ≠ .stopped) :
    ∃ newWorker others, Advances action pool (pool.step action index) worker newWorker others := by
  obtain ⟨newWorker, moves, workers_eq⟩ := moves_step action found active
  obtain ⟨bound, rfl⟩ := List.getElem?_eq_some_iff.1 found
  refine ⟨newWorker, pool.workers.eraseIdx index, moves, ?_, ?_⟩
  · exact (List.getElem_cons_eraseIdx_perm bound).symm
  · rw [workers_eq]
    exact List.set_perm_cons_eraseIdx bound newWorker

/-- Either nothing happens in a step, or a worker that has not stopped makes a move. -/
theorem step_cases (action : α → StateM σ β) (pool : Pool σ α β) (index : Nat) :
    pool.step action index = pool ∨ ∃ worker newWorker others,
      Advances action pool (pool.step action index) worker newWorker others := by
  by_cases active : ∃ worker, pool.workers[index]? = some worker ∧ worker ≠ .stopped
  · obtain ⟨worker, found, active⟩ := active
    exact .inr ⟨worker, advances_step action found active⟩
  · refine .inl (step_of_stopped fun worker found => ?_)
    by_contra other
    exact active ⟨worker, found, other⟩

/-! ### The invariant -/

/-- Every item is done, with a worker or in the queue. The results of the done items, and of no
others, are with a worker or delivered, and they are the answers that the actions give at the
start. The state is the one after the done items. A worker only stops when the queue is empty. -/
structure Accounts (action : α → StateM σ β) (items : List (Nat × α)) (start : σ)
    (done : List (Nat × α)) (pool : Pool σ α β) : Prop where
  items : (done ++ (pool.workers.filterMap Worker.item? ++ pool.queue)).Perm items
  results : (pool.workers.filterMap Worker.result? ++ pool.delivered).Perm
    (done.map fun entry => (entry.1, (action entry.2 start).1))
  state : pool.state = stateAfter action (done.map Prod.snd) start
  exhausted : .stopped ∈ pool.workers → pool.queue = []

variable {items done : List (Nat × α)} {start : σ} {valid : σ → Prop}

/-- The order of the workers does not matter. -/
theorem Accounts.perm (accounts : Accounts action items start done pool)
    {workers : List (Worker α β)} (perm : pool.workers.Perm workers) :
    Accounts action items start done { pool with workers } where
  items := (((perm.symm.filterMap _).append_right _).append_left _).trans accounts.items
  results := ((perm.symm.filterMap _).append_right _).trans accounts.results
  state := accounts.state
  exhausted member := accounts.exhausted (perm.mem_iff.2 member)

/-- Every step keeps the account of the pool, whichever worker takes it. -/
theorem Accounts.step (accounts : Accounts action items start done pool)
    (unordered : Unordered valid action (items.map Prod.snd)) (isValid : valid start)
    (index : Nat) : ∃ done, Accounts action items start done (pool.step action index) := by
  obtain same | ⟨worker, newWorker, others, advances⟩ := step_cases action pool index
  · rw [same]
    exact ⟨done, accounts⟩
  generalize pool.step action index = next at advances
  obtain ⟨moves, workersPerm, newPerm⟩ := advances
  suffices ∃ done, Accounts action items start done { next with workers := newWorker :: others } by
    obtain ⟨done, accounts⟩ := this
    exact ⟨done, accounts.perm newPerm.symm⟩
  obtain ⟨items_perm, results_perm, state_eq, exhausted⟩ := accounts.perm workersPerm
  cases moves with
  | take state number item queue workers newWorkers delivered =>
    -- The item goes from the queue into the hands of the worker.
    refine ⟨done, .trans (.append_left done ?_) items_perm, results_perm, state_eq, ?_⟩
    · exact List.perm_middle.symm
    · intro member
      simpa using exhausted (by simpa using member)
  | stop state workers newWorkers delivered =>
    exact ⟨done, items_perm, results_perm, state_eq, fun _ => rfl⟩
  | work state queue workers newWorkers delivered number item =>
    -- The item is done. Its action answers as at the start, because it is none of the done ones.
    have placed : (done ++ [(number, item)] ++
        (others.filterMap Worker.item? ++ queue)).Perm items := by
      rw [List.append_assoc]
      exact items_perm
    have answer : (action item state).1 = (action item start).1 := by
      obtain rfl : state = _ := state_eq
      have withDone := (unordered.perm (placed.symm.map Prod.snd))
      simp only [List.map_append] at withDone
      exact (withDone.left.perm List.perm_append_comm).answer_stateAfter isValid
    refine ⟨done ++ [(number, item)], placed, ?_, ?_, fun member => exhausted ?_⟩
    · rw [List.map_append, answer]
      exact (results_perm.cons _).trans (List.perm_append_singleton _ _).symm
    · simp only [stateAfter, List.map_append, List.foldl_append] at state_eq ⊢
      rw [← state_eq]
      rfl
    · simpa using member
  | deliver state queue workers newWorkers delivered number result =>
    refine ⟨done, items_perm, .trans ?_ results_perm, state_eq, fun member => exhausted ?_⟩
    · exact List.perm_middle
    · simpa using member

/-- What the steps of a schedule keep. -/
theorem Accounts.run (accounts : Accounts action items start done pool)
    (unordered : Unordered valid action (items.map Prod.snd)) (isValid : valid start)
    (schedule : List Nat) :
    ∃ done, Accounts action items start done (pool.run action schedule) := by
  induction schedule generalizing pool done with
  | nil => exact ⟨done, accounts⟩
  | cons index schedule ih =>
    obtain ⟨done, accounts⟩ := accounts.step unordered isValid index
    exact ih accounts

/-- The items with their numbers. -/
def numbered (items : List α) : List (Nat × α) :=
  items.zipIdx.map fun (item, index) => (index, item)

theorem map_snd_numbered (items : List α) : (numbered items).map Prod.snd = items := by
  simp only [numbered, List.map_map]
  exact List.zipIdx_map_fst 0 items

/-- The account holds before the first step. -/
theorem accounts_start (action : α → StateM σ β) (workers : Nat) (items : List α) (state : σ) :
    Accounts action (numbered items) state [] (Pool.start workers items state) where
  items := by
    rw [start, List.filterMap_replicate_of_none rfl]
    exact .refl _
  results := by
    rw [start, List.filterMap_replicate_of_none rfl]
    exact .refl _
  state := rfl
  exhausted member := by simp [start] at member

/-! ### Pools that have stopped -/

/-- Every item is numbered by its place. -/
theorem mem_numbered {items : List α} {entry : Nat × α} :
    entry ∈ numbered items ↔ items[entry.1]? = some entry.2 := by
  obtain ⟨index, item⟩ := entry
  simp [numbered, List.mem_zipIdx_iff_getElem?]

theorem nodup_fst_numbered (items : List α) : ((numbered items).map Prod.fst).Nodup := by
  have numbers : (numbered items).map Prod.fst = List.range' 0 items.length := by
    simp only [numbered, List.map_map]
    exact List.zipIdx_map_snd 0 items
  rw [numbers]
  exact List.nodup_range'

/-- Of entries with different keys, the one that is looked up is found. -/
theorem lookup_eq_some_of_mem {entries : List (Nat × β)} {key : Nat} {value : β}
    (nodup : (entries.map Prod.fst).Nodup) (member : (key, value) ∈ entries) :
    entries.lookup key = some value := by
  obtain ⟨before, after, rfl⟩ := List.append_of_mem member
  refine List.lookup_eq_some_iff.2 ⟨before, after, rfl, fun entry earlier => ?_⟩
  rw [List.map_append, List.nodup_append] at nodup
  have other := nodup.2.2 entry.1 (List.mem_map_of_mem earlier) key (by simp)
  exact bne_iff_ne.2 (Ne.symm other)

theorem filterMap_range_getElem? (values : List β) :
    (List.range values.length).filterMap (fun index => values[index]?) = values := by
  induction values with
  | nil => rfl
  | cons value values ih =>
    rw [List.length_cons, List.range_succ_eq_map, List.filterMap_cons, List.filterMap_map]
    exact congrArg (value :: ·) ih

/-- Delivered results come out in the order of the items, whatever the order of their delivery. -/
theorem results_eq_map {items : List α} {answer : α → β}
    (perm : pool.delivered.Perm ((numbered items).map fun entry => (entry.1, answer entry.2))) :
    pool.results items.length = items.map answer := by
  have nodup : (pool.delivered.map Prod.fst).Nodup := by
    rw [(perm.map Prod.fst).nodup_iff, List.map_map]
    exact nodup_fst_numbered items
  have found (index : Nat) (bound : index ∈ List.range items.length) :
      pool.delivered.lookup index = (items.map answer)[index]? := by
    obtain ⟨item, item_eq⟩ : ∃ item, items[index]? = some item :=
      ⟨_, List.getElem?_eq_getElem (List.mem_range.1 bound)⟩
    rw [List.getElem?_map, item_eq]
    refine lookup_eq_some_of_mem nodup (perm.mem_iff.2 ?_)
    exact List.mem_map.2 ⟨(index, item), mem_numbered.2 item_eq, rfl⟩
  rw [results, List.filterMap_congr found]
  simpa using filterMap_range_getElem? (items.map answer)

theorem length_workers_run (action : α → StateM σ β) (pool : Pool σ α β) (schedule : List Nat) :
    (pool.run action schedule).workers.length = pool.workers.length := by
  induction schedule generalizing pool with
  | nil => rfl
  | cons index schedule ih =>
    refine (ih (pool.step action index)).trans ?_
    obtain same | ⟨_, _, others, advances⟩ := step_cases action pool index
    · rw [same]
    · rw [advances.newWorkers.length_eq, advances.workers.length_eq]
      rfl

/-- When all workers have stopped, the results and the state are those of running the actions one
after another. -/
theorem run_eq_mapM {items : List α} {workers : Nat} (present : 0 < workers)
    (unordered : Unordered valid action items) (isValid : valid start) (schedule : List Nat)
    (stopped : ((Pool.start workers items start).run action schedule).IsStopped) :
    (((Pool.start workers items start).run action schedule).results items.length,
      ((Pool.start workers items start).run action schedule).state) = items.mapM action start := by
  have unorderedNumbered : Unordered valid action ((numbered items).map Prod.snd) := by
    rwa [map_snd_numbered]
  obtain ⟨done, accounts⟩ :=
    (accounts_start action workers items start).run unorderedNumbered isValid schedule
  have count : ((Pool.start workers items start).run action schedule).workers.length = workers := by
    rw [length_workers_run]
    exact List.length_replicate
  generalize (Pool.start workers items start).run action schedule = pool at *
  -- There is a worker, and it has stopped, so nothing is left in the queue or with a worker.
  have same : pool.workers = List.replicate workers .stopped :=
    List.eq_replicate_iff.2 ⟨count, isStopped_iff.1 stopped⟩
  have emptied : pool.queue = [] := by
    refine accounts.exhausted ?_
    rw [same]
    exact List.mem_replicate.2 ⟨by omega, rfl⟩
  have allDone : done.Perm (numbered items) := by
    have placed := accounts.items
    rwa [same, emptied, List.filterMap_replicate_of_none rfl, List.append_nil, List.append_nil]
      at placed
  have delivered : pool.delivered.Perm
      (done.map fun entry => (entry.1, (action entry.2 start).1)) := by
    have answered := accounts.results
    rwa [same, List.filterMap_replicate_of_none rfl] at answered
  have state_eq : pool.state = stateAfter action items start := by
    rw [accounts.state]
    have perm := allDone.map Prod.snd
    rw [map_snd_numbered] at perm
    exact (unordered.perm perm.symm).stateAfter_perm isValid perm
  rw [unordered.mapM_eq isValid, state_eq]
  exact congrArg (·, _) (results_eq_map (delivered.trans (allDone.map _)))

/-! ### The fair schedule -/

/-- The steps that the workers have still to take until all of them have stopped. -/
def stepsLeft (pool : Pool σ α β) : Nat :=
  3 * pool.queue.length + (pool.workers.map Worker.stepsLeft).sum

/-- A move is one of the steps that were left. -/
theorem Advances.stepsLeft_eq {worker newWorker : Worker α β} {others : List (Worker α β)}
    (advances : Advances action pool next worker newWorker others) :
    next.stepsLeft + 1 = pool.stepsLeft := by
  obtain ⟨moves, workers, newWorkers⟩ := advances
  have before := (workers.map Worker.stepsLeft).sum_nat
  have after := (newWorkers.map Worker.stepsLeft).sum_nat
  cases moves <;> simp [stepsLeft, Worker.stepsLeft] at before after ⊢ <;> omega

/-- No schedule adds steps. -/
theorem stepsLeft_run_le (action : α → StateM σ β) (pool : Pool σ α β) (schedule : List Nat) :
    (pool.run action schedule).stepsLeft ≤ pool.stepsLeft := by
  induction schedule generalizing pool with
  | nil => exact Nat.le_refl _
  | cons index schedule ih =>
    refine Nat.le_trans (ih (pool.step action index)) ?_
    obtain same | ⟨_, _, _, advances⟩ := step_cases action pool index
    · exact Nat.le_of_eq (congrArg stepsLeft same)
    · have fewer := advances.stepsLeft_eq
      omega

/-- A step of one worker leaves the others as they are. -/
theorem getElem?_workers_step (action : α → StateM σ β) (pool : Pool σ α β) {other : Nat}
    (ne : other ≠ index) : (pool.step action other).workers[index]? = pool.workers[index]? := by
  by_cases active : ∃ worker, pool.workers[other]? = some worker ∧ worker ≠ .stopped
  · obtain ⟨worker, found, active⟩ := active
    obtain ⟨newWorker, -, workers_eq⟩ := moves_step action found active
    rw [workers_eq, List.getElem?_set_ne ne]
  · rw [step_of_stopped fun worker found => by_contra fun still => active ⟨worker, found, still⟩]

/-- A schedule that gives a turn to a worker that has not stopped leaves fewer steps. -/
theorem stepsLeft_run_lt (action : α → StateM σ β) {worker : Worker α β} {schedule : List Nat}
    (found : pool.workers[index]? = some worker) (active : worker ≠ .stopped)
    (turn : index ∈ schedule) : (pool.run action schedule).stepsLeft < pool.stepsLeft := by
  induction schedule generalizing pool with
  | nil => cases turn
  | cons other schedule ih =>
    by_cases same : other = index
    · subst same
      obtain ⟨_, _, advances⟩ := advances_step action found active
      have fewer := advances.stepsLeft_eq
      have later := stepsLeft_run_le action (pool.step action other) schedule
      exact Nat.lt_of_le_of_lt later (by omega)
    · -- Until its turn comes the worker stays as it is.
      have later := ih ((getElem?_workers_step action pool same).trans found)
        ((List.mem_cons.1 turn).resolve_left (Ne.symm same))
      exact Nat.lt_of_lt_of_le later (stepsLeft_run_le action pool [other])

/-- Without steps left the pool has stopped. -/
theorem isStopped_of_stepsLeft_eq_zero (none : pool.stepsLeft = 0) : pool.IsStopped := by
  refine isStopped_iff.2 fun worker member => ?_
  have weightless : worker.stepsLeft = 0 :=
    List.sum_eq_zero_iff_forall_eq_nat.1 (Nat.eq_zero_of_add_eq_zero_left none) _
      (List.mem_map_of_mem member)
  by_contra active
  exact absurd (Worker.stepsLeft_pos.2 active) (by omega)

/-- A pool that has stopped stays as it is. -/
theorem run_of_isStopped (stopped : pool.IsStopped) (schedule : List Nat) :
    pool.run action schedule = pool := by
  induction schedule with
  | nil => rfl
  | cons index schedule ih =>
    have same : pool.step action index = pool := step_of_stopped fun worker found =>
      isStopped_iff.1 stopped worker (List.mem_of_getElem? found)
    rw [run, List.foldl_cons, same]
    exact ih

/-- In each round a step is taken, or all workers have stopped. -/
theorem isStopped_or_stepsLeft_le (action : α → StateM σ β) {workers : Nat}
    (count : pool.workers.length = workers) (rounds : Nat) :
    (pool.run action (List.replicate rounds (List.range workers)).flatten).IsStopped ∨
      (pool.run action (List.replicate rounds (List.range workers)).flatten).stepsLeft + rounds ≤
        pool.stepsLeft := by
  induction rounds generalizing pool with
  | zero => exact .inr (Nat.le_refl _)
  | succ rounds ih =>
    by_cases stopped : pool.IsStopped
    · left
      rwa [run_of_isStopped stopped]
    · obtain ⟨worker, member, active⟩ : ∃ worker ∈ pool.workers, worker ≠ .stopped := by
        simpa [isStopped_iff] using stopped
      obtain ⟨index, found⟩ := List.mem_iff_getElem?.1 member
      have turn : index ∈ List.range workers := by
        rw [List.mem_range, ← count]
        exact (List.getElem?_eq_some_iff.1 found).1
      have fewer := stepsLeft_run_lt action found active turn
      have later := ih ((length_workers_run action pool (List.range workers)).trans count)
      rw [List.replicate_succ, List.flatten_cons, run, List.foldl_append]
      exact later.imp_right fun bound => by
        simp only [run] at bound fewer ⊢
        omega

/-- Every worker stops under the fair schedule. -/
theorem isStopped_fairSchedule (action : α → StateM σ β) (workers : Nat) (items : List α)
    (state : σ) :
    ((Pool.start workers items state).run action (fairSchedule workers items.length)).IsStopped := by
  have initial : (Pool.start workers items state : Pool σ α β).stepsLeft =
      3 * items.length + workers := by
    simp [stepsLeft, start, Worker.stepsLeft]
  have count : (Pool.start workers items state : Pool σ α β).workers.length = workers :=
    List.length_replicate
  obtain stopped | bound := isStopped_or_stepsLeft_le action count (3 * items.length + workers)
  · exact stopped
  · refine isStopped_of_stepsLeft_eq_zero ?_
    rw [fairSchedule]
    omega

end Pool

/-! ### Runs by a pool -/

/-- Runs an action on every item as `runPooled` does, with the steps of the workers in the order that
a schedule gives. -/
def runScheduled (schedule : List Nat) (workers : Nat) (action : α → StateM σ β) (items : List α) :
    StateM σ (List β) :=
  let workers := min workers items.length
  if workers ≤ 1 then items.mapM action
  else fun state =>
    let pool := (Pool.start workers items state).run action schedule
    (pool.results items.length, pool.state)

/-- If there is a pool, all of its workers have stopped at the end of the schedule. -/
def Completes (schedule : List Nat) (workers : Nat) (action : α → StateM σ β) (items : List α)
    (state : σ) : Prop :=
  1 < min workers items.length →
    ((Pool.start (min workers items.length) items state).run action schedule).IsStopped

/-- Giving every worker enough turns completes the work. -/
theorem completes_fairSchedule (workers : Nat) (action : α → StateM σ β) (items : List α)
    (state : σ) :
    Completes (fairSchedule (min workers items.length) items.length) workers action items state :=
  fun _ => Pool.isStopped_fairSchedule action _ items state

variable {valid : σ → Prop} {action : α → StateM σ β} {items : List α} {start : σ}

/-- A pool gives what running the actions one after another gives, in whatever order the workers take
their steps. -/
theorem runScheduled_eq (unordered : Unordered valid action items) (isValid : valid start)
    {schedule : List Nat} {workers : Nat}
    (completes : Completes schedule workers action items start) :
    runScheduled schedule workers action items start = items.mapM action start := by
  unfold runScheduled
  simp only
  split
  · rfl
  · exact Pool.run_eq_mapM (by omega) unordered isValid schedule (completes (by omega))

/-- The pool ends where going through the items in order does, in the same state and with the same
results. -/
theorem runPooled_eq (unordered : Unordered valid action items) (isValid : valid start)
    (workers : Nat) : runPooled workers action items start = items.mapM action start :=
  runScheduled_eq unordered isValid (completes_fairSchedule workers action items start)

end SuiteMigration
