import Mathlib.Data.String.Basic
import Moon.RunState
import Moon.ActionGraph

/-!
# Task fingerprint and task command

What of a run reaches its fingerprint (`moon_task_hasher`), and which arguments the
command of the same run gets (`CommandBuilder::inject_args`).
-/

namespace Moon

open Moon.Lib

inductive DependencyScope
  | build
  | development
  | peer
  | production
  | root
deriving DecidableEq

inductive DependencySource
  | explicit
  | implicit
deriving DecidableEq

structure ProjectDependencyConfig where
  id : Id
  scope : DependencyScope := .production
  source : DependencySource := .explicit
  via : Option String := none
deriving DecidableEq

structure Project where
  aliases : List String := []
  dependencies : List ProjectDependencyConfig := []
  id : Id
  root : PathBuf := ⟨true, []⟩
  source : WorkspaceRelativePath := ⟨[""]⟩
  toolchains : List Id := []
deriving DecidableEq

def Project.getDependencyIds (project : Project) : List Id := project.dependencies.map (·.id)

/-- The content that is serialized and hashed for a run. Maps are finite maps, whose
serialization is determined by their entries. -/
structure TaskFingerprint where
  cacheKey : Option String
  command : String
  args : List String
  deps : Map Target String
  env : Map String (Option String)
  inputs : Map String String
  inputEnv : Map String String
  outputs : List Output
  projectDeps : List Id
  script : Option String
  target : Target
  toolchains : List Id
  version : String

def TaskFingerprint.new (project : Project) (task : Task) : TaskFingerprint where
  cacheKey := task.options.cacheKey
  command := task.command.value
  args := task.args.map TaskArg.getValue
  deps := ∅
  env := Map.write Prod.fst (some ∘ Prod.snd) ∅ task.env
  inputs := ∅
  inputEnv := ∅
  outputs := task.outputs
  projectDeps := project.getDependencyIds
  script := task.script
  target := task.target
  toolchains := task.toolchains
  version := "3"

variable (fingerprint : TaskFingerprint)

def TaskFingerprint.hashArgs (args : List String) : TaskFingerprint :=
  { fingerprint with args := fingerprint.args ++ args }

def TaskFingerprint.hashDeps (deps : Map Target String) : TaskFingerprint :=
  { fingerprint with deps := deps ∪ fingerprint.deps }

def TaskFingerprint.hashEnv (env : EnvMap) : TaskFingerprint :=
  { fingerprint with env := Map.write Prod.fst (some ∘ Prod.snd) fingerprint.env env }

structure HashedInputs where
  inputs : Map String String := ∅
  inputEnv : Map String String := ∅

def TaskFingerprint.hashInputs (hashed : HashedInputs) : TaskFingerprint :=
  { fingerprint with inputs := hashed.inputs, inputEnv := hashed.inputEnv }

/-- `TaskHasher::hash`, which sorts the arguments and the project dependencies. -/
def TaskFingerprint.hash : TaskFingerprint :=
  { fingerprint with
    args := fingerprint.args.insertionSort (· ≤ ·)
    projectDeps := fingerprint.projectDeps.insertionSort (· ≤ ·) }

def depHashInput (strategy : Option TaskDependencyCacheStrategy) (state : TargetState) :
    Option String :=
  match strategy with
  | some .ignored => some "ignored"
  | some .hash | none =>
    match state with
    | .passed hash | .skippedConditional hash => some hash
    | .passthrough => some "passthrough"
    | .failed | .skipped => none
  | some .outputs =>
    match state with
    | .passed _ | .skippedConditional _ => some "outputs"
    | .passthrough => some "outputs-passthrough"
    | .failed | .skipped => none

variable (context : ActionContext)

def depContribution (task : Task) (dep : TaskDependencyConfig) : Option String :=
  if context.isDependencyIgnored task.target dep.target then
    some "passthrough"
  else
    (context.targetStates.lookup dep.target).bind (depHashInput dep.cacheStrategy)

/-- The dependency map of a run: entries of one target overwrite each other in order. -/
def hashedDeps (task : Task) : Map Target String :=
  Map.write (fun dep => dep.target) (depContribution context task) ∅ task.deps

/-- `hash_common_task_contents`, the content handed to the hasher. -/
def hashCommonTaskContents (hashed : HashedInputs) (context : ActionContext)
    (project : Project) (task : Task) (node : ActionNode) : TaskFingerprint :=
  let hasher := TaskFingerprint.new project task
  let hasher :=
    if task.script.isNone && context.shouldInheritArgs task.target then
      hasher.hashArgs context.passthroughArgs
    else hasher
  let hasher := hasher.hashDeps (hashedDeps context task)
  let hasher := hasher.hashInputs hashed
  let hasher :=
    match node with
    | .runTask inner => (hasher.hashArgs inner.args).hashEnv inner.env
    | _ => hasher
  hasher.hash

/-- `AugmentedCommand::from_task`: a script replaces the arguments of the task. -/
def commandFromTask (task : Task) : List TaskArg := if task.script.isSome then [] else task.args

/-- `CommandBuilder::inject_args`: the arguments of the dependency edge come first. -/
def injectArgs (task : Task) (node : ActionNode) (command : List TaskArg) : List TaskArg :=
  let command :=
    match node with
    | .runTask inner => command ++ inner.args.map (fun arg => ⟨none, arg⟩)
    | _ => command
  if task.script.isNone && context.shouldInheritArgs task.target &&
      !context.passthroughArgs.isEmpty then
    command ++ context.passthroughArgs.map (fun arg => ⟨none, arg⟩)
  else command

def executedArgs (task : Task) (node : ActionNode) : List TaskArg :=
  injectArgs context task node (commandFromTask task)

end Moon
