import Moon.Lib.Except
import Moon.Lib.Map

/-!
# Pooled tasks

`run_pooled_tasks` runs a future for each input, a bounded number of them at a time.
-/

namespace Moon

open Moon.Lib

/-- The loop of `run_pooled_tasks`, with what the outputs are applied to. A future is what it
comes to. -/
structure PooledTasks (I O S : Type) where
  queue : List I
  nextIndex : Nat := 0
  flushIndex : Nat := 0
  set : List (Nat × Except String O) := []
  completed : Map Nat O := ∅
  state : S

namespace PooledTasks

variable {I O S : Type} (concurrency : Nat) (onInput : I → Except String (Except String O))
  (onOutput : S → O → Except String S)

def spawnNext (pool : PooledTasks I O S) : Except String (PooledTasks I O S) :=
  match pool.queue with
  | [] => .ok pool
  | input :: queue => do
    let future ← onInput input
    return { pool with
      queue := queue
      nextIndex := pool.nextIndex + 1
      set := pool.set ++ [(pool.nextIndex, future)] }

/-- Applies the outputs that are next in order. Each round takes an index, so there are at
most as many as were given out. -/
def flush : (fuel : Nat) → PooledTasks I O S → Except String (PooledTasks I O S)
  | 0, pool => .ok pool
  | fuel + 1, pool =>
    match pool.completed.lookup pool.flushIndex with
    | none => .ok pool
    | some output => do
      let state ← onOutput pool.state output
      flush fuel { pool with
        completed := pool.completed.erase pool.flushIndex
        flushIndex := pool.flushIndex + 1
        state := state }

def join (pool : PooledTasks I O S) (position index : Nat) (future : Except String O) :
    Except String (PooledTasks I O S) := do
  let output ← future
  flush onOutput (pool.nextIndex + 1) { pool with
    set := pool.set.eraseIdx position
    completed := pool.completed.insert index output }

def weight (pool : PooledTasks I O S) : Nat := 2 * pool.queue.length + pool.set.length

variable {onInput onOutput}

lemma spawnNext_cases {pool spawned : PooledTasks I O S}
    (h : pool.spawnNext onInput = .ok spawned) :
    (pool.queue = [] ∧ spawned = pool) ∨
      ∃ input queue future, pool.queue = input :: queue ∧ onInput input = .ok future ∧
        spawned = { pool with
          queue := queue
          nextIndex := pool.nextIndex + 1
          set := pool.set ++ [(pool.nextIndex, future)] } := by
  unfold spawnNext at h
  split at h
  next hq =>
    cases h
    exact Or.inl ⟨hq, rfl⟩
  next input queue hq =>
    obtain ⟨future, hf, hs⟩ := bind_eq_ok h
    cases hs
    exact Or.inr ⟨input, queue, future, hq, hf, rfl⟩

lemma weight_spawnNext {pool spawned : PooledTasks I O S}
    (h : pool.spawnNext onInput = .ok spawned) :
    spawned.weight ≤ pool.weight ∧ (spawned.queue ≠ [] → spawned.weight < pool.weight) := by
  obtain ⟨hq, rfl⟩ | ⟨input, queue, future, hq, -, rfl⟩ := spawnNext_cases h
  · exact ⟨le_rfl, fun hn => absurd hq hn⟩
  · simp only [weight, hq, List.length_append, List.length_cons, List.length_nil]
    omega

lemma flush_frame {fuel : Nat} {pool flushed : PooledTasks I O S}
    (h : pool.flush onOutput fuel = .ok flushed) :
    flushed.queue = pool.queue ∧ flushed.nextIndex = pool.nextIndex ∧ flushed.set = pool.set := by
  induction fuel generalizing pool with
  | zero =>
    cases h
    exact ⟨rfl, rfl, rfl⟩
  | succ fuel ih =>
    unfold flush at h
    split at h
    next =>
      cases h
      exact ⟨rfl, rfl, rfl⟩
    next output _ =>
      obtain ⟨state, -, hr⟩ := bind_eq_ok h
      have hf := ih hr
      exact hf

lemma weight_join {pool joined : PooledTasks I O S} {position index : Nat}
    {future : Except String O} (hp : pool.set[position]? = some (index, future))
    (h : pool.join onOutput position index future = .ok joined) : joined.weight < pool.weight := by
  cases future with
  | error e => cases h
  | ok output =>
    obtain ⟨hq, -, hs⟩ := flush_frame h
    have hl : position < pool.set.length := (List.getElem?_eq_some_iff.mp hp).1
    simp only [weight, hq, hs, List.length_eraseIdx_of_lt hl]
    omega

variable (onInput onOutput)

/-- The rounds of the loop. Which of the futures is done first is up to `joinNext`, a position
in the set for each time one is waited for. -/
def loop (joinNext : Nat → Nat) (joins : Nat) (pool : PooledTasks I O S) : Except String S :=
  match _hspawned : pool.spawnNext onInput with
  | .error error => .error error
  | .ok spawned =>
    if spawned.set.length < concurrency ∧ spawned.queue ≠ [] then
      loop joinNext joins spawned
    else
      match _hposition : spawned.set[joinNext joins % spawned.set.length]? with
      | none => .ok spawned.state
      | some (index, future) =>
        match _hjoined :
            spawned.join onOutput (joinNext joins % spawned.set.length) index future with
        | .error error => .error error
        | .ok pool => loop joinNext (joins + 1) pool
termination_by pool.weight
decreasing_by
  · exact (weight_spawnNext _hspawned).2 (by simp_all)
  · exact lt_of_lt_of_le (weight_join _hposition _hjoined) (weight_spawnNext _hspawned).1

end PooledTasks

/-- `run_pooled_tasks`, which gives back what the outputs were applied to. -/
def runPooledTasks {I O S : Type} (concurrency : Nat)
    (onInput : I → Except String (Except String O)) (onOutput : S → O → Except String S)
    (joinNext : Nat → Nat) (queue : List I) (state : S) : Except String S :=
  PooledTasks.loop concurrency onInput onOutput joinNext 0 { queue := queue, state := state }

end Moon
