import Moon.TaskDepsBuilder

/-!
# What the fingerprint of a task distinguishes

The fingerprint holds the arguments of a run as a sorted list, and one value for each dependency
target.
-/

namespace Moon.Proofs

open Moon.Lib List Option

def inheritedArgs (context : ActionContext) (task : Task) : List String :=
  if task.script.isNone && context.shouldInheritArgs task.target then
    context.passthroughArgs
  else []

def nodeArgs : ActionNode → List String
  | .runTask inner => inner.args
  | _ => []

section

variable (ha : HashedInputs) (c : ActionContext) (p : Project) (k : Task) (n : ActionNode)

include ha

lemma hashCommonTaskContents_args :
    (hashCommonTaskContents ha c p k n).args =
      (k.args.map TaskArg.getValue ++ inheritedArgs c k ++ nodeArgs n).insertionSort (· ≤ ·) := by
  dsimp only [hashCommonTaskContents, inheritedArgs]
  by_cases h : (k.script.isNone && c.shouldInheritArgs k.target)
  · rw [if_pos h, if_pos h]
    cases n <;> simp [TaskFingerprint.hash, TaskFingerprint.hashArgs, TaskFingerprint.hashDeps,
      TaskFingerprint.hashInputs, TaskFingerprint.hashEnv, TaskFingerprint.new, nodeArgs]
  · rw [if_neg h, if_neg h]
    cases n <;> simp [TaskFingerprint.hash, TaskFingerprint.hashArgs, TaskFingerprint.hashDeps,
      TaskFingerprint.hashInputs, TaskFingerprint.hashEnv, TaskFingerprint.new, nodeArgs]

lemma hashCommonTaskContents_deps :
    (hashCommonTaskContents ha c p k n).deps = hashedDeps c k := by
  have hu : hashedDeps c k ∪ (∅ : Map Target String) = hashedDeps c k := Finmap.union_empty
  dsimp only [hashCommonTaskContents]
  by_cases h : (k.script.isNone && c.shouldInheritArgs k.target)
  · rw [if_pos h]
    cases n <;> exact hu
  · rw [if_neg h]
    cases n <;> exact hu

end

lemma executedArgs_eq (c : ActionContext) (k : Task) (n : ActionNode) :
    executedArgs c k n = commandFromTask k ++ (nodeArgs n).map (fun arg => ⟨none, arg⟩) ++
        (inheritedArgs c k).map (fun arg => ⟨none, arg⟩) := by
  unfold executedArgs injectArgs inheritedArgs
  by_cases h : (k.script.isNone && c.shouldInheritArgs k.target)
  · cases hp : c.passthroughArgs with
    | nil => cases n <;> simp [nodeArgs]
    | cons arg args => cases n <;> simp [h, nodeArgs]
  · cases n <;> simp [h, nodeArgs]

/-- Two runs of a task share the arguments of the fingerprint exactly if their argument sequences
are rearrangements of each other, and share no fingerprint otherwise. -/
theorem fingerprint_args_eq_iff_perm (hashed₁ hashed₂ : HashedInputs)
    (context₁ context₂ : ActionContext) (project₁ project₂ : Project) (task : Task)
    (node₁ node₂ : ActionNode) :
    ((hashCommonTaskContents hashed₁ context₁ project₁ task node₁).args =
        (hashCommonTaskContents hashed₂ context₂ project₂ task node₂).args ↔
      (executedArgs context₁ task node₁).Perm (executedArgs context₂ task node₂)) ∧
    (¬ (executedArgs context₁ task node₁).Perm (executedArgs context₂ task node₂) →
      hashCommonTaskContents hashed₁ context₁ project₁ task node₁ ≠
        hashCommonTaskContents hashed₂ context₂ project₂ task node₂) := by
  have hsort (l l' : List String) :
      l.insertionSort (· ≤ ·) = l'.insertionSort (· ≤ ·) ↔ l.Perm l' := by
    constructor
    · intro h
      exact (perm_insertionSort (· ≤ ·) l).symm.trans (h ▸ perm_insertionSort (· ≤ ·) l')
    · intro h
      exact (((perm_insertionSort (· ≤ ·) l).trans h).trans
        (perm_insertionSort (· ≤ ·) l').symm).eq_of_sortedLE sortedLE_insertionSort
          sortedLE_insertionSort
  have hargs : (hashCommonTaskContents hashed₁ context₁ project₁ task node₁).args =
        (hashCommonTaskContents hashed₂ context₂ project₂ task node₂).args ↔
      (executedArgs context₁ task node₁).Perm (executedArgs context₂ task node₂) := by
    have hinj : Function.Injective (fun arg : String => (⟨none, arg⟩ : TaskArg)) :=
      fun _ _ h => congrArg TaskArg.value h
    rw [hashCommonTaskContents_args, hashCommonTaskContents_args, hsort, append_assoc, append_assoc,
      perm_append_left_iff, executedArgs_eq, executedArgs_eq, append_assoc, append_assoc,
      perm_append_left_iff, ← map_append, ← map_append, map_perm_map_iff hinj]
    -- the two kinds of extra arguments stand in the other order on the command line
    exact ⟨fun h => perm_append_comm.trans (h.trans perm_append_comm),
      fun h => perm_append_comm.trans (h.trans perm_append_comm)⟩
  exact ⟨hargs, fun h he => h (hargs.mp (congrArg TaskFingerprint.args he))⟩

def copyTask : Task := { command := ⟨none, "cp"⟩, target := Target.new "app" "copy" }

def copyContext (args : List String) : ActionContext :=
  { passthroughArgs := args, primaryTargets := [copyTask.target] }

def copyNode : ActionNode := .runTask { target := copyTask.target }

theorem copy_args_not_perm_fingerprint_ne :
    ¬(executedArgs (copyContext ["a", "b"]) copyTask copyNode).Perm
        (executedArgs (copyContext ["a"]) copyTask copyNode) ∧
      hashCommonTaskContents {} (copyContext ["a", "b"]) { id := "app" } copyTask copyNode ≠
        hashCommonTaskContents {} (copyContext ["a"]) { id := "app" } copyTask copyNode :=
  have h : ¬(executedArgs (copyContext ["a", "b"]) copyTask copyNode).Perm
      (executedArgs (copyContext ["a"]) copyTask copyNode) := by decide
  ⟨h, (fingerprint_args_eq_iff_perm {} {} _ _ _ _ copyTask copyNode copyNode).2 h⟩

/-- Swapping the two arguments changes the command line and keeps the fingerprint. -/
theorem copy_args_swapped_share_fingerprint :
    executedArgs (copyContext ["a", "b"]) copyTask copyNode ≠
        executedArgs (copyContext ["b", "a"]) copyTask copyNode ∧
      hashCommonTaskContents {} (copyContext ["a", "b"]) { id := "app" } copyTask copyNode =
        hashCommonTaskContents {} (copyContext ["b", "a"]) { id := "app" } copyTask copyNode := by
  refine ⟨by decide, ?_⟩
  rfl

/-- Of the entries for one target the last is hashed. -/
def lastEntry (task : Task) (target : Target) : Option TaskDependencyConfig :=
  (task.deps.filter (fun dep => dep.target = target)).getLast?

def passedInput (strategy : Option TaskDependencyCacheStrategy) (hash : String) : String :=
  match strategy with
  | some .ignored => "ignored"
  | some .hash | none => hash
  | some .outputs => "outputs"

lemma depHashInput_passed (s : Option TaskDependencyCacheStrategy) (hash : String) :
    depHashInput s (.passed hash) = some (passedInput s hash) := by
  rcases s with _ | (_ | _ | _) <;> rfl

section

variable (c : ActionContext) (k : Task) (t : Target)

lemma lookup_hashedDeps :
    (hashedDeps c k).lookup t = ((k.deps.filter (fun dep => dep.target = t)).filterMap
        (depContribution c k)).getLast? := by
  unfold hashedDeps
  rw [Map.lookup_write]
  simp

lemma lookup_hashedDeps_passed (hash : String) (hi : c.isDependencyIgnored k.target t = false)
    (hs : c.targetStates.lookup t = some (.passed hash)) :
    (hashedDeps c k).lookup t =
      (lastEntry k t).map (fun dep => passedInput dep.cacheStrategy hash) := by
  have hc : ∀ dep ∈ k.deps.filter (fun dep => dep.target = t),
      depContribution c k dep = some (passedInput dep.cacheStrategy hash) := by
    intro dep hd
    have ht : dep.target = t := by simpa using (mem_filter.mp hd).2
    subst ht
    simp [depContribution, hi, hs, depHashInput_passed]
  rw [lookup_hashedDeps, filterMap_congr hc, lastEntry]
  have hm := filterMap_eq_map (f := fun dep : TaskDependencyConfig =>
    passedInput dep.cacheStrategy hash)
  rw [show (fun dep : TaskDependencyConfig => some (passedInput dep.cacheStrategy hash)) =
    some ∘ (fun dep => passedInput dep.cacheStrategy hash) from rfl, hm, getLast?_map]

lemma lookup_hashedDeps_none (hi : c.isDependencyIgnored k.target t = false)
    (hs : c.targetStates.lookup t = none) : (hashedDeps c k).lookup t = none := by
  have hc : ∀ dep ∈ k.deps.filter (fun dep => dep.target = t), depContribution c k dep = none := by
    intro dep hd
    have ht : dep.target = t := by simpa using (mem_filter.mp hd).2
    subst ht
    simp [depContribution, hi, hs]
  rw [lookup_hashedDeps, filterMap_congr hc]
  simp

end

/-- The dependency passed in both contexts, with different hashes. -/
def DepChanged (task : Task) (target : Target) (context₁ context₂ : ActionContext) : Prop :=
  ∃ hash₁ hash₂, hash₁ ≠ hash₂ ∧
    context₁.isDependencyIgnored task.target target = false ∧
    context₂.isDependencyIgnored task.target target = false ∧
    context₁.targetStates.lookup target = some (.passed hash₁) ∧
    context₂.targetStates.lookup target = some (.passed hash₂)

def passedContext (target : Target) (hash : String) : ActionContext :=
  { targetStates := (∅ : Map Target TargetState).insert target (.passed hash) }

lemma hashedDeps_passedContext (k : Task) (t : Target) (dep : TaskDependencyConfig)
    (hl : lastEntry k t = some dep) (h : dep.cacheStrategy ≠ some .hash)
    (hn : dep.cacheStrategy ≠ none) (ha₁ ha₂ : String) :
    hashedDeps (passedContext t ha₁) k = hashedDeps (passedContext t ha₂) k := by
  apply Finmap.ext_lookup
  intro o
  by_cases ho : o = t
  · subst ho
    rw [lookup_hashedDeps_passed _ k o ha₁ rfl (Finmap.lookup_insert _),
      lookup_hashedDeps_passed _ k o ha₂ rfl (Finmap.lookup_insert _), hl]
    simp only [map_some]
    rcases hs : dep.cacheStrategy with _ | (_ | _ | _)
    · exact absurd hs hn
    · exact absurd hs h
    · rfl
    · rfl
  · have hno (hash : String) : (hashedDeps (passedContext t hash) k).lookup o = none := by
      apply lookup_hashedDeps_none _ k o rfl
      exact (Finmap.lookup_insert_of_ne _ ho).trans (Finmap.lookup_empty o)
    rw [hno, hno]

/-- A changed dependency always changes the dependency map exactly when its last entry uses
the hash strategy: the entries of one target overwrite each other. -/
theorem dep_change_invalidates_iff (task : Task) (target : Target)
    (hhash : ∃ dep ∈ task.deps, dep.target = target ∧
      (dep.cacheStrategy = some .hash ∨ dep.cacheStrategy = none)) :
    (∀ hashed₁ hashed₂ context₁ context₂ project₁ project₂ node₁ node₂,
      DepChanged task target context₁ context₂ →
        (hashCommonTaskContents hashed₁ context₁ project₁ task node₁).deps ≠
          (hashCommonTaskContents hashed₂ context₂ project₂ task node₂).deps) ↔
      ∃ dep, lastEntry task target = some dep ∧
        (dep.cacheStrategy = some .hash ∨ dep.cacheStrategy = none) := by
  obtain ⟨e, hm, ht, -⟩ := hhash
  have hn : task.deps.filter (fun dep => dep.target = target) ≠ [] :=
    ne_nil_of_mem (mem_filter.mpr ⟨hm, by simpa using ht⟩)
  obtain ⟨dep, hls⟩ : ∃ dep, lastEntry task target = some dep := ⟨_, getLast?_eq_some_getLast hn⟩
  simp only [hashCommonTaskContents_deps]
  constructor
  · intro ha
    refine ⟨dep, hls, ?_⟩
    by_contra hc
    rw [not_or] at hc
    apply ha {} {} (passedContext target "a") (passedContext target "b") { id := "" }
      { id := "" } .none .none
    · exact ⟨"a", "b", by decide, rfl, rfl, Finmap.lookup_insert _, Finmap.lookup_insert _⟩
    · exact hashedDeps_passedContext task target dep hls hc.1 hc.2 "a" "b"
  · rintro ⟨dep', hl', hs⟩ - - context₁ context₂ - - - - ⟨ha₁, ha₂, hd, hi₁, hi₂, hs₁, hs₂⟩ heq
    have hl := congrArg (Finmap.lookup target) heq
    rw [lookup_hashedDeps_passed context₁ task target ha₁ hi₁ hs₁,
      lookup_hashedDeps_passed context₂ task target ha₂ hi₂ hs₂, hl'] at hl
    rcases hs with h | h
    · simp only [h, map_some, passedInput, some.injEq] at hl
      exact hd hl
    · simp only [h, map_some, passedInput, some.injEq] at hl
      exact hd hl

def hashEntry : TaskDependencyConfig :=
  { target := Target.new "lib" "build", cacheStrategy := some .hash }

def ignoredEntry : TaskDependencyConfig :=
  { target := Target.new "lib" "build", args := ["--docs"], cacheStrategy := some .ignored }

def buildTask (deps : List TaskDependencyConfig) : Task :=
  { command := ⟨none, "make"⟩, deps := deps, target := Target.new "app" "build" }

theorem hash_entry_last_invalidates : (∃ dep ∈ (buildTask [ignoredEntry, hashEntry]).deps,
      dep.target = Target.new "lib" "build" ∧
        (dep.cacheStrategy = some .hash ∨ dep.cacheStrategy = none)) ∧
    ∀ hashed₁ hashed₂ context₁ context₂ project₁ project₂ node₁ node₂,
      DepChanged (buildTask [ignoredEntry, hashEntry]) (Target.new "lib" "build")
          context₁ context₂ →
        (hashCommonTaskContents hashed₁ context₁ project₁
            (buildTask [ignoredEntry, hashEntry]) node₁).deps ≠
          (hashCommonTaskContents hashed₂ context₂ project₂
            (buildTask [ignoredEntry, hashEntry]) node₂).deps :=
  have h : ∃ dep ∈ (buildTask [ignoredEntry, hashEntry]).deps,
      dep.target = Target.new "lib" "build" ∧
        (dep.cacheStrategy = some .hash ∨ dep.cacheStrategy = none) := by decide
  ⟨h, (dep_change_invalidates_iff _ _ h).mpr ⟨hashEntry, by decide, by decide⟩⟩

def libQuerent : TasksQuerent where
  queryProjectsByTag := fun _ => .ok []
  queryTasks := fun ids scope =>
    .ok (if ids = ["lib"] ∧ scope = .id "build" then [(Target.new "lib" "build", {})] else [])
  queryTaskHasOutputs := fun _ => true

/-- The builder keeps both entries, and a change of `lib:build` leaves the map of the task
unchanged although its first entry uses the hash strategy. -/
theorem hash_entry_overwritten : (TaskDepsBuilder.build libQuerent none { id := "app" }
        (buildTask [hashEntry, ignoredEntry])).map (fun result => result.2.deps) =
      .ok [hashEntry, ignoredEntry] ∧
    DepChanged (buildTask [hashEntry, ignoredEntry]) hashEntry.target
      (passedContext hashEntry.target "a") (passedContext hashEntry.target "b") ∧
    (hashCommonTaskContents {} (passedContext hashEntry.target "a") { id := "app" }
        (buildTask [hashEntry, ignoredEntry]) .none).deps =
      (hashCommonTaskContents {} (passedContext hashEntry.target "b") { id := "app" }
        (buildTask [hashEntry, ignoredEntry]) .none).deps := by
  refine ⟨by decide, ⟨"a", "b", by decide, rfl, rfl, rfl, rfl⟩, ?_⟩
  rw [hashCommonTaskContents_deps, hashCommonTaskContents_deps]
  exact hashedDeps_passedContext _ _ ignoredEntry (by decide) (by decide) (by decide) "a" "b"

end Moon.Proofs
