import Moon.Lib.Hoare
import Moon.OutputHydrater
import Moon.TaskExecutor

/-!
# The task runner

One run of a task: check the dependencies, hash, hydrate from a cache or execute and archive,
and save the state of the run.
-/

namespace Moon

structure TaskRunCacheState where
  exitCode : Int := 0
  hash : String := ""
  lastRunTime : Nat := 0
  target : String := ""
deriving DecidableEq

namespace CacheItem

def load (mode : CacheMode) (file : Option TaskRunCacheState) : TaskRunCacheState :=
  if mode.isReadable then file.getD {} else {}

def save (mode : CacheMode) (file : Option TaskRunCacheState) (data : TaskRunCacheState) :
    Option TaskRunCacheState :=
  if mode.isWritable then some data else file

end CacheItem

inductive TaskCheck
  | condition (script : String)
  | requirement (script : String)
deriving DecidableEq

/-- A finished check. `success` is missing if the check timed out. -/
structure CheckExecuteResult where
  attempt : Operation
  check : TaskCheck
  error : Option TaskRunnerError := none
  success : Option Bool
deriving DecidableEq

structure OutputsOnDisk where
  fileExists : WorkspaceRelativePath → Bool := fun _ => true
  getOutputFiles : Except TaskRunnerError (List PathBuf) := .ok []

def hasOutputsBeenCreated (task : Task) (disk : OutputsOnDisk) (bypassGlobs : Bool) :
    Except TaskRunnerError Bool :=
  let hasGlobs := !task.outputGlobs.isEmpty
  let allNegatedGlobs := task.outputGlobs.all (fun glob => glob.asStr.toList.head? == some '!')
  if bypassGlobs && hasGlobs && !allNegatedGlobs then
    .ok false
  else if task.outputFiles.any (fun output => !disk.fileExists output.1 && !output.2.optional) then
    .ok false
  else if hasGlobs && !allNegatedGlobs then do
    let outputs ← disk.getOutputFiles
    return !(outputs.isEmpty &&
      !task.outputs.all (fun output => output.isGlob && output.isOptional))
  else
    .ok true

/-- What a run reads from the disk, the cache and its process. -/
structure RunEnv where
  mode : CacheMode
  casOutputsCache : Bool := false
  remoteEnabled : Bool := false
  vcsEnabled : Bool := true
  workspaceRoot : WorkspaceRoot := ⟨⟨true, []⟩, .refl true⟩
  taskOutputGlobset : WorkspaceRelativePath → Bool := fun _ => false
  now : Nat := 0
  parseLifetime : String → Except TaskRunnerError Nat := fun _ => .ok 0
  /-- The digest of the fingerprint. A content hash is never empty. -/
  digest : Except TaskRunnerError Digest
  digest_hash_ne : ∀ d, digest = .ok d → d.hash ≠ ""
  outputs : OutputsOnDisk := {}
  archiveStale : Except TaskRunnerError Bool := .ok false
  loadManifest : Except StorageError (Option ManifestSource) := .ok none
  hydration : HydrateEnv := {}
  readLogs : Except TaskRunnerError Unit := .ok ()
  hydratedLogs : Except TaskRunnerError Unit := .ok ()
  checks : Except TaskRunnerError (List CheckExecuteResult) := .ok []
  buildCommand : Except TaskRunnerError Unit := .ok ()
  attempts : Nat → Attempt := fun _ => { outcome := .output (some (some 0)) }
  executedLogs : Except TaskRunnerError Unit := .ok ()
  outputsAfter : OutputsOnDisk := {}
  storeOutputs : Except TaskRunnerError Unit := .ok ()
  saveState : Except TaskRunnerError Unit := .ok ()
  onTaskCompleted : Except TaskRunnerError Unit := .ok ()

/-- `executed` and `hydrated` are not in the source: they record that the command was run, and that
outputs were written from a cache. -/
structure TaskRunner where
  task : Task
  hydrater : OutputHydrater
  cache : TaskRunCacheState
  operations : List Operation := []
  reportHash : Option String := none
  state : TaskRunState
  executed : Bool := false
  hydrated : Bool := false

abbrev RunM := EStateM TaskRunnerError TaskRunner

namespace TaskRunner

variable (env : RunEnv)

def new (task : Task) (file : Option TaskRunCacheState) : TaskRunner :=
  let cache := CacheItem.load env.mode file
  { task := task
    hydrater := ⟨task, env.workspaceRoot, env.taskOutputGlobset⟩
    cache := if cache.target = "" then { cache with target := task.target.asStr } else cache
    state := TaskRunState.new env.mode env.casOutputsCache env.remoteEnabled task }

def pushOperation (operation : Operation) : RunM PUnit :=
  modify (fun runner => { runner with operations := runner.operations ++ [operation] })

def setTarget (target : TargetState) : RunM PUnit :=
  modify (fun runner => { runner with state := { runner.state with target := some target } })

def isCacheEnabled (runner : TaskRunner) (env : RunEnv) : Bool :=
  runner.task.options.cache.isEnabled && env.vcsEnabled

/-- `is_dependencies_complete`: over the dependencies in order, up to the first that decides. -/
def isDependenciesComplete (task : Task) (context : ActionContext) :
    List TaskDependencyConfig → Except TaskRunnerError Bool
  | [] => .ok true
  | dep :: deps =>
    if context.isDependencyIgnored task.target dep.target then
      isDependenciesComplete task context deps
    else
      match context.targetStates.lookup dep.target with
      | some depState =>
        if depState.isComplete then isDependenciesComplete task context deps else .ok false
      | none => .error (.missingDependencyHash dep.target task.target)

def skip : RunM PUnit := do
  pushOperation ⟨.taskExecution none, .skipped⟩
  setTarget .skipped

def skipConditional : RunM PUnit := do
  let runner ← get
  pushOperation ⟨.taskExecution none, .skipped⟩
  setTarget (.skippedConditional (runner.reportHash.getD "passthrough"))

def skipNoOp : RunM PUnit := do
  let runner ← get
  pushOperation ⟨.noOperation, .passed⟩
  setTarget (.fromHash runner.reportHash)

def hash : RunM String := do
  let digest ← liftExcept env.digest
  pushOperation ⟨.hashGeneration, .passed⟩
  modify (fun runner => { runner with
    reportHash := some digest.hash
    state := { runner.state with digest := digest } })
  return digest.hash

def isCacheStale (lifetime : Option Nat) (runner : TaskRunner) : Bool :=
  match lifetime with
  | some duration =>
    decide (0 < runner.cache.lastRunTime) && decide (runner.cache.lastRunTime + duration ≤ env.now)
  | none => false

def isCached (hash : String) : RunM (Option HydrateFrom) := do
  let runner ← get
  let lifetime ← liftExcept (match runner.task.options.cacheLifetime with
    | some lifetime => (env.parseLifetime lifetime).map some
    | none => .ok none)
  let stale := isCacheStale env lifetime runner
  let reusable ← liftExcept (
    if runner.cache.exitCode == 0 && runner.cache.hash == hash then
      hasOutputsBeenCreated runner.task env.outputs true
    else .ok false)
  if reusable then
    return if stale then none else some .previousOutput
  else if !env.mode.isReadable then
    return none
  else
    -- only after the previous outputs were checked above
    modify (fun runner => { runner with cache := { runner.cache with hash := hash } })
    if runner.cache.exitCode > 0 || stale then
      return none
    else
      let archived ← liftExcept (
        if !env.hydration.archiveExists hash then .ok false
        else match lifetime with
          | some _ => env.archiveStale.map (fun archiveStale => !archiveStale)
          | none => .ok true)
      if archived then
        return some .localArchive
      else
        return match runner.state.digest.isValid, env.loadManifest with
          | true, .ok (some source) => some (.storage source)
          | _, _ => none

/-- The exit code is set before the logs are written. -/
def persistState (logs : Except TaskRunnerError Unit) (operation : Operation) : RunM Unit := do
  modify (fun runner => { runner with
    cache := { runner.cache with
      exitCode := operation.getExitCode.getD runner.cache.exitCode } })
  liftExcept logs

def wroteOutputs (source : HydrateFrom)
    (result : List CreatedOutput × Except TaskRunnerError HydrateOutcome) : Bool :=
  match source, result with
  | .previousOutput, _ => false
  | _, (_, .ok .hit) => true
  | _, (_, .ok (.hitFromStorage _ _)) => true
  | _, (created, _) => !created.isEmpty

def hydrate (hash : String) : RunM Bool := do
  match ← isCached env hash with
  | none =>
    pushOperation ⟨.outputHydration none, .skipped⟩
    return false
  | some source =>
    let runner ← get
    let result := runner.hydrater.hydrate env.hydration source hash runner.state
    modify (fun runner =>
      { runner with hydrated := runner.hydrated || wroteOutputs source result })
    match ← liftExcept result.2 with
    | .skipped =>
      pushOperation ⟨.outputHydration none, .skipped⟩
      return false
    | .missed =>
      pushOperation ⟨.outputHydration none, .invalid⟩
      return false
    | .hit =>
      liftExcept env.readLogs
      pushOperation ⟨.outputHydration (some runner.cache.exitCode), .cached⟩
      setTarget (.passed hash)
      return true
    | .hitFromStorage manifest remote =>
      let operation : Operation := ⟨.outputHydration (some manifest.exitCode),
        if remote then .cachedFromRemote else .cached⟩
      persistState env.hydratedLogs operation
      pushOperation operation
      setTarget (.passed hash)
      return true

/-- The loop of `execute_checks`, which returns whether there were conditions and all of
them were met. -/
def executeChecks (target : Target) : List CheckExecuteResult → Bool → Bool → RunM Bool
  | [], hasConditions, allConditionsMet => return hasConditions && allConditionsMet
  | result :: results, hasConditions, allConditionsMet => do
    match result.error with
    | some error => throw error
    | none =>
      pushOperation result.attempt
      match result.check with
      | .condition _ =>
        executeChecks target results true (allConditionsMet && result.success == some true)
      | .requirement script =>
        if result.success == some false then
          throw (.requirementCheckFailed target script)
        else
          executeChecks target results hasConditions allConditionsMet

/-- The lock itself only delays the run. -/
def acquireMutex : RunM PUnit := do
  let runner ← get
  if runner.task.options.mutex.isSome then
    pushOperation ⟨.mutexAcquisition, .passed⟩
  else
    pure ⟨⟩

def persistLastAttempt (attempts : List Operation) : RunM Unit :=
  match getLastExecution attempts with
  | some lastAttempt => persistState env.executedLogs lastAttempt
  | none => pure ()

def executeCommand : RunM Unit := do
  liftExcept env.buildCommand
  acquireMutex
  let runner ← get
  let executed := TaskExecutor.execute runner.task runner.reportHash env.attempts
  modify (fun runner => { runner with executed := runner.executed || executed.1 })
  let result ← liftExcept executed.2
  persistLastAttempt env result.attempts
  modify (fun runner => { runner with operations := runner.operations ++ result.attempts })
  setTarget result.runState
  liftExcept (match result.error with
    | some error => .error error
    | none => .ok ())
  let runner ← get
  if (getLastExecution runner.operations).any Operation.hasFailed then
    throw (.runFailed runner.task.target)
  else
    pure ()

def execute : RunM Unit := do
  let runner ← get
  if runner.task.isNoOp then
    skipNoOp
  else
    let checks ← liftExcept env.checks
    if ← executeChecks runner.task.target checks false true then
      skipConditional
    else
      executeCommand env

def archiveOutputs (runner : TaskRunner) : Except TaskRunnerError Bool := do
  let created ←
    if runner.task.isBuildType then hasOutputsBeenCreated runner.task env.outputsAfter false
    else .ok true
  if !created then
    .error (.missingOutputs runner.task.target)
  else if !runner.state.localCacheWritable && !runner.state.remoteCacheWritable then
    return false
  else
    env.storeOutputs
    return true

def archive : RunM Bool := do
  let runner ← get
  if runner.state.target.any TargetState.isSkipped then
    return false
  else
    let archived ← liftExcept (archiveOutputs env runner)
    pushOperation ⟨.archiveCreation, if archived then .passed else .skipped⟩
    return archived

def internalRun (context : ActionContext) : RunM (Option String) := do
  let runner ← get
  let complete ← liftExcept (isDependenciesComplete runner.task context runner.task.deps)
  if !complete then
    skip
    return none
  else
    let hash ← TaskRunner.hash env
    if runner.isCacheEnabled env then
      if ← hydrate env hash then
        return some hash
      else
        execute env
        let _ ← archive env
        return some hash
    else
      execute env
      return some hash

/-- What a run leaves behind: the runner, the state it sets for its target, the saved state
on disk, and the hash or the error it ended with. -/
structure RunReport where
  runner : TaskRunner
  targetState : Option TargetState
  file : Option TaskRunCacheState
  result : Except TaskRunnerError (Option String)

/-- `TaskRunner::new` and then `run`. The target state is not set if saving fails. -/
def run (task : Task) (file : Option TaskRunCacheState) (context : ActionContext) : RunReport :=
  let (runner, result) : TaskRunner × Except TaskRunnerError (Option String) :=
    match (internalRun env context).run (new env task file) with
    | .ok hash runner => (runner, .ok hash)
    | .error error runner => (runner, .error error)
  let cache := { runner.cache with lastRunTime := env.now }
  let runner := { runner with cache := cache }
  match env.saveState with
  | .error error => ⟨runner, none, file, .error error⟩
  | .ok _ =>
    let otherwise := match result with
      | .ok _ => TargetState.passthrough
      | .error _ => TargetState.failed
    ⟨runner, some (runner.state.target.getD otherwise), CacheItem.save env.mode file cache,
      match result, env.onTaskCompleted with
      | .error error, _ => .error error
      | .ok hash, .ok _ => .ok hash
      | .ok _, .error error => .error error⟩

end TaskRunner

end Moon
