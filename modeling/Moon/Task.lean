import Moon.Path

/-!
# Targets and tasks

The parts of `moon_target`, `moon_config` and `moon_task` that the task runner, the task
hasher and the action graph read.
-/

namespace Moon

abbrev Id := String

inductive TargetDependencyScope
  | build
  | development
  | peer
  | production
deriving DecidableEq, Repr

/-- The project half of a target, with the text that the source slices out of the id. -/
inductive TargetProjectScope
  | all
  | deps
  | depsOf (scope : TargetDependencyScope)
  | id (value : String)
  | ownSelf
  | tag (value : String)
deriving DecidableEq, Repr

inductive TargetTaskScope
  | id (value : String)
  | tag (value : String)
deriving DecidableEq, Repr

structure Target where
  project : TargetProjectScope
  task : TargetTaskScope
deriving DecidableEq, Repr

def TargetDependencyScope.asStr : TargetDependencyScope → String
  | .build => "build"
  | .development => "development"
  | .peer => "peer"
  | .production => "production"

def TargetProjectScope.asStr : TargetProjectScope → String
  | .all => ""
  | .deps => "^"
  | .depsOf scope => "^" ++ scope.asStr
  | .id value => value
  | .ownSelf => "~"
  | .tag value => "#" ++ value

def TargetTaskScope.asStr : TargetTaskScope → String
  | .id value => value
  | .tag value => "#" ++ value

namespace Target

def asStr (target : Target) : String := target.project.asStr ++ ":" ++ target.task.asStr

def new (project task : String) : Target := ⟨.id project, .id task⟩

def getProjectId (target : Target) : Option String :=
  match target.project with
  | .id value => some value
  | _ => none

def getTaskId (target : Target) : Option String :=
  match target.task with
  | .id value => some value
  | .tag _ => none

/-- Whether the target is `:task` for the given task, written with or without the `:`. -/
def isAllTask (target : Target) (taskId : String) : Bool :=
  match target.project, target.getTaskId with
  | .all, some innerId =>
    match taskId.toList with
    | ':' :: id => innerId == String.ofList id
    | _ => innerId == taskId
  | _, _ => false

end Target

/-- `TargetLocator`, what a user names on the command line. -/
inductive TargetLocator
  | defaultProject (taskId : Id)
  | globMatch (project : Option TargetProjectScope) (projectGlob : Option String)
      (taskGlob : String)
  | qualified (target : Target)
deriving DecidableEq

/-- `IndexMap<String, Option<String>>`: entries in insertion order, one for each key. -/
abbrev EnvMap := List (String × Option String)

/-- Inserting an existing key replaces its value in place. -/
def EnvMap.insert (env : EnvMap) (key : String) (value : Option String) : EnvMap :=
  if env.any (fun entry => entry.1 == key) then
    env.map (fun entry => if entry.1 == key then (key, value) else entry)
  else
    env ++ [(key, value)]

def EnvMap.extend (env other : EnvMap) : EnvMap :=
  other.foldl (fun acc entry => EnvMap.insert acc entry.1 entry.2) env

inductive TaskDependencyCacheStrategy
  | hash
  | ignored
  | outputs
deriving DecidableEq

structure TaskDependencyConfig where
  args : List String := []
  env : EnvMap := []
  target : Target
  optional : Option Bool := none
  cacheStrategy : Option TaskDependencyCacheStrategy := none
deriving DecidableEq

structure TaskArg where
  quotedValue : Option String := none
  value : String
deriving DecidableEq

def TaskArg.getValue (arg : TaskArg) : String := arg.quotedValue.getD arg.value

inductive TaskOptionRunInCI
  | always
  | affected
  | only
  | skip
  | enabled (state : Bool)
deriving DecidableEq

/-- `is_enabled`: everything but an explicit `false`. -/
def TaskOptionRunInCI.isEnabled : TaskOptionRunInCI → Bool
  | .enabled state => state
  | _ => true

inductive TaskOptionCache
  | localOnly
  | remoteOnly
  | enabled (state : Bool)
deriving DecidableEq

def TaskOptionCache.isEnabled : TaskOptionCache → Bool
  | .enabled state => state
  | _ => true

def TaskOptionCache.isLocalEnabled : TaskOptionCache → Bool
  | .enabled state => state
  | .localOnly => true
  | .remoteOnly => false

def TaskOptionCache.isRemoteEnabled : TaskOptionCache → Bool
  | .enabled state => state
  | .localOnly => false
  | .remoteOnly => true

inductive TaskPriority
  | critical
  | high
  | normal
  | low
deriving DecidableEq

def TaskPriority.getLevel : TaskPriority → Nat
  | .critical => 0
  | .high => 1
  | .normal => 2
  | .low => 3

structure TaskOptions where
  allowFailure : Bool := false
  cache : TaskOptionCache := .enabled true
  cacheKey : Option String := none
  cacheLifetime : Option String := none
  interactive : Bool := false
  internal : Bool := false
  mutex : Option String := none
  persistent : Bool := false
  priority : TaskPriority := .normal
  retryCount : Nat := 0
  runDepsInParallel : Bool := true
  runInCI : TaskOptionRunInCI := .enabled true
deriving DecidableEq

inductive Output
  | file (path : String) (optional : Option Bool)
  | glob (pattern : String) (optional : Option Bool)
  | tokenFunc (value : String)
  | tokenVar (value : String)
deriving DecidableEq

def Output.isGlob : Output → Bool
  | .glob _ _ => true
  | _ => false

def Output.isOptional : Output → Bool
  | .file _ optional => optional.getD false
  | .glob _ optional => optional.getD false
  | _ => false

structure TaskState where
  defaultInputs : Bool := false
  emptyInputs : Bool := false
deriving DecidableEq

structure TaskFileInput where
  content : Option String := none
  optional : Option Bool := none
deriving DecidableEq

structure TaskGlobInput where
  cache : Bool := true
deriving DecidableEq

structure TaskFileOutput where
  optional : Bool := false
deriving DecidableEq

inductive TaskType
  | build
  | run
  | test
deriving DecidableEq

structure Task where
  command : TaskArg := ⟨none, "noop"⟩
  args : List TaskArg := []
  deps : List TaskDependencyConfig := []
  env : EnvMap := []
  inputEnv : List String := []
  inputFiles : List (WorkspaceRelativePath × TaskFileInput) := []
  inputGlobs : List (WorkspaceRelativePath × TaskGlobInput) := []
  options : TaskOptions := {}
  outputs : List Output := []
  outputFiles : List (WorkspaceRelativePath × TaskFileOutput) := []
  outputGlobs : List WorkspaceRelativePath := []
  script : Option String := none
  state : TaskState := {}
  tags : List Id := []
  target : Target
  toolchains : List Id := ["system"]
  typeOf : TaskType := .test
deriving DecidableEq

namespace Task

variable (task : Task)

def hasOutputs : Bool :=
  !task.outputs.isEmpty || !task.outputFiles.isEmpty || !task.outputGlobs.isEmpty

def isBuildType : Bool := task.typeOf == .build || task.hasOutputs

def isInternal : Bool := task.options.internal

def isInteractive : Bool := task.options.interactive

def isPersistent : Bool := task.options.persistent

def isNoOp : Bool :=
  (task.command.value == "nop" || task.command.value == "noop" ||
    task.command.value == "no-op") && task.script.isNone

def shouldRun (inCI : Bool) : Bool :=
  if inCI then
    match task.options.runInCI with
    | .skip => false
    | .enabled state => state
    | _ => true
  else
    task.options.runInCI != .only

end Task

end Moon
