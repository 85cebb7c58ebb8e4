import Moon.Lib.Map
import Moon.Manifest
import Moon.Task

/-!
# The state of a pipeline and of one task run

All actions of one pipeline share how each target ended, which dependencies the graph left out,
and the arguments to pass through.
-/

namespace Moon

open Moon.Lib

inductive TargetState
  | passed (hash : String)
  | passthrough
  | failed
  | skipped
  | skippedConditional (hash : String)
deriving DecidableEq

namespace TargetState

def fromHash : Option String → TargetState
  | some hash => .passed hash
  | none => .passthrough

def isComplete : TargetState → Bool
  | .passed _ | .passthrough | .skippedConditional _ => true
  | .failed | .skipped => false

def isSkipped : TargetState → Bool
  | .skipped | .skippedConditional _ => true
  | _ => false

end TargetState

structure ActionContext where
  initialTargets : List TargetLocator := []
  ignoredDependencies : Map Target (List Target) := ∅
  passthroughArgs : List String := []
  primaryTargets : List Target := []
  targetStates : Map Target TargetState := ∅

namespace ActionContext

variable (context : ActionContext)

def isDependencyIgnored (target dependency : Target) : Bool :=
  match context.ignoredDependencies.lookup target with
  | some dependencies => dependencies.contains dependency
  | none => false

/-- `insert_sync` of the concurrent map fails on an existing key, and the error is dropped. -/
def setTargetState (target : Target) (state : TargetState) : ActionContext :=
  { context with targetStates := context.targetStates.insertNew target state }

def shouldInheritArgs (target : Target) : Bool :=
  !context.passthroughArgs.isEmpty && (context.primaryTargets.contains target ||
      context.initialTargets.any (fun locator =>
        match target.getTaskId, locator with
        | some taskId, .qualified otherTarget => otherTarget.isAllTask taskId
        | _, _ => false))

end ActionContext

inductive CacheMode
  | off
  | read
  | readWrite
  | write
deriving DecidableEq

def CacheMode.isReadable : CacheMode → Bool
  | .read | .readWrite => true
  | _ => false

def CacheMode.isWritable : CacheMode → Bool
  | .readWrite | .write => true
  | _ => false

/-- The errors of a run: those of `TaskRunnerError`, and those passed on from the crates
below it. -/
inductive TaskRunnerError
  | runFailed (target : Target)
  | requirementCheckFailed (target : Target) (script : String)
  | missingDependencyHash (depTarget target : Target)
  | missingOutputs (target : Target)
  | outputFileNotDeclared (target : Target) (output : PathBuf)
  | manifest (error : ManifestError)
  | storage (error : StorageError)
  | other (message : String)
deriving DecidableEq

structure TaskRunState where
  digest : Digest := ⟨"", 0⟩
  target : Option TargetState := none
  localCasEnabled : Bool := false
  localCacheReadable : Bool := false
  localCacheWritable : Bool := false
  remoteCacheReadable : Bool := false
  remoteCacheWritable : Bool := false
deriving DecidableEq

/-- `TaskRunState::new`, from the cache engine's mode and the workspace settings. -/
def TaskRunState.new (mode : CacheMode) (casOutputsCache remoteEnabled : Bool) (task : Task) :
    TaskRunState where
  localCasEnabled := casOutputsCache
  localCacheReadable := mode.isReadable && task.options.cache.isLocalEnabled
  localCacheWritable := mode.isWritable && task.options.cache.isLocalEnabled
  remoteCacheReadable := mode.isReadable && task.options.cache.isRemoteEnabled && remoteEnabled
  remoteCacheWritable := mode.isWritable && task.options.cache.isRemoteEnabled && remoteEnabled

end Moon
