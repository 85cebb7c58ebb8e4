import Moon.SetupActions

/-!
# Running tasks

How the builder inserts the nodes of the requested tasks, of the tasks they depend on and of
the tasks that depend on them.
-/

namespace Moon

/-- The depth wraps around in a release build. -/
structure RunTaskState where
  depth : UInt8 := 0
  viaDependency : Bool := false
deriving DecidableEq

/-- The arguments of one `internal_run_task`. -/
structure TaskVisit where
  task : Task
  reqs : RunRequirements
  config : Option TaskDependencyConfig := none
  state : RunTaskState := {}
deriving DecidableEq

namespace TaskVisit

variable (visit : TaskVisit)

def shouldRunDependencies : Bool :=
  visit.reqs.dependencies.isInScope visit.state.depth

def shouldRunDependents : Bool :=
  !visit.state.viaDependency && visit.reqs.dependents.isInScope visit.state.depth

/-- Whether the task is not to run in the environment, and this is checked. -/
def isPassthrough : Bool :=
  visit.reqs.ciCheck && !visit.task.shouldRun visit.reqs.ci

def node (fxHash : RunTaskId → UInt64) (visit : TaskVisit) : RunTaskNode :=
  RunTaskNode.calculateId fxHash
    { args := (visit.config.map (·.args)).getD []
      env := (visit.config.map (·.env)).getD []
      interactive := visit.task.isInteractive || visit.reqs.interactive
      persistent := visit.task.isPersistent
      priority := visit.task.options.priority.getLevel
      target := visit.task.target }

def dependency (dep : TaskDependencyConfig) (depTask : Task) : TaskVisit where
  task := depTask
  reqs := { visit.reqs with skipAffected := true }
  config := some dep
  state := ⟨visit.state.depth + 1, true⟩

def dependent (depTask : Task) : TaskVisit where
  task := depTask
  reqs := { visit.reqs with skipAffected := false }
  state := ⟨visit.state.depth + 1, false⟩

end TaskVisit

namespace ActionGraphBuilder

variable {A : Type}

/-- `previous` has to run before the whole subtree of the dependency, in a serial list. -/
def linkSerial (parallel : Bool) (depIndex : Nat) (previous : Option Nat) : BuildM A Unit :=
  match previous with
  | some previous =>
    if parallel then pure ()
    else modify (fun builder => builder.linkSerialRequirements depIndex previous)
  | none => pure ()

/-- The inner loop of `run_task_dependencies`, over the tasks of one dependency, with the
index of the previous dependency. -/
def runDependencyTasks (run : TaskVisit → BuildM A (Option Nat)) (visit : TaskVisit)
    (dep : TaskDependencyConfig) :
    List Task → Option Nat → BuildM A (List Nat × Option Nat)
  | [], previous => return ([], previous)
  | depTask :: depTasks, previous => do
    match ← run (visit.dependency dep depTask) with
    | some depIndex =>
      linkSerial visit.task.options.runDepsInParallel depIndex previous
      let (indexes, previous) ← runDependencyTasks run visit dep depTasks (some depIndex)
      return (depIndex :: indexes, previous)
    | none => runDependencyTasks run visit dep depTasks previous

def runTaskDependencies (env : BuilderEnv A) (run : TaskVisit → BuildM A (Option Nat))
    (visit : TaskVisit) : List TaskDependencyConfig → Option Nat → BuildM A (List Nat)
  | [], _ => return []
  | dep :: deps, previous => do
    let depTasks ← orFail .workspace
      (env.workspace.resolveTasksFromTarget env.allQuery dep.target true)
    let (indexes, previous) ← runDependencyTasks run visit dep depTasks previous
    let rest ← runTaskDependencies env run visit deps previous
    return indexes ++ rest

def runDependentTasks (run : TaskVisit → BuildM A (Option Nat)) (visit : TaskVisit) :
    List Task → BuildM A Unit
  | [] => return ()
  | depTask :: depTasks => do
    let _ ← run (visit.dependent depTask)
    runDependentTasks run visit depTasks

def runTaskDependents (env : BuilderEnv A) (run : TaskVisit → BuildM A (Option Nat))
    (visit : TaskVisit) : List Target → BuildM A Unit
  | [] => return ()
  | depTarget :: depTargets => do
    let depTasks ← orFail .workspace
      (env.workspace.resolveTasksFromTarget env.allQuery depTarget true)
    runDependentTasks run visit depTasks
    runTaskDependents env run visit depTargets

variable (env : BuilderEnv A) (run : TaskVisit → BuildM A (Option Nat)) (visit : TaskVisit)

def expandDependents (expand : Bool) : BuildM A Unit :=
  if expand then
    runTaskDependents env run visit (env.workspace.taskDependents visit.task.target)
  else pure ()

def takeIgnoredDependencies : BuildM A Bool := do
  let builder ← get
  if visit.shouldRunDependencies then
    modify (fun builder => { builder with
      ignoredDependencies := builder.ignoredDependencies.erase visit.task.target })
    return (builder.ignoredDependencies.lookup visit.task.target).isSome
  else
    return false

def takeIgnoredDependents : BuildM A Bool := do
  let builder ← get
  if visit.shouldRunDependents then
    modify (fun builder => { builder with
      ignoredDependents := builder.ignoredDependents.erase visit.task.target })
    return decide (visit.task.target ∈ builder.ignoredDependents)
  else
    return false

def expandIgnoredDependencies (hadIgnoredDependencies : Bool) : BuildM A (List Nat) :=
  if hadIgnoredDependencies then runTaskDependencies env run visit visit.task.deps none
  else pure []

def revisitNode (index : Nat) (hadIgnoredDependencies hadIgnoredDependents : Bool) :
    BuildM A (Option Nat) := do
  let edges ← expandIgnoredDependencies env run visit hadIgnoredDependencies
  linkRequirements index edges
  expandDependents env run visit hadIgnoredDependents
  return some index

def initialEdges (fuel : Nat) (project : Project) (visit : TaskVisit) : BuildM A (List Nat) := do
  let syncProjectIndex ← syncProject env fuel project visit.reqs
  let installIndexes ← installDependenciesByToolchains env fuel project visit.task.toolchains
  let edges := (syncProjectIndex :: installIndexes).filterMap id
  if edges.isEmpty then
    return (← syncWorkspace env).toList
  else
    return edges

/-- The dependencies of a new node, which are recorded as ignored out of scope. -/
def expandDependencies : BuildM A (List Nat) :=
  if visit.task.deps.isEmpty then
    pure []
  else if visit.shouldRunDependencies then
    runTaskDependencies env run visit visit.task.deps none
  else do
    modify (fun builder => { builder with
      ignoredDependencies := builder.ignoredDependencies.insert visit.task.target
        (visit.task.deps.map (·.target)) })
    return []

/-- The dependents of a new node, which is remembered when they are out of scope. -/
def expandOrIgnoreDependents : BuildM A Unit :=
  if visit.shouldRunDependents then
    expandDependents env run visit true
  else
    modify (fun builder => { builder with
      ignoredDependents := insert visit.task.target builder.ignoredDependents })

def visitNewNode (fuel : Nat) (run : TaskVisit → BuildM A (Option Nat)) (project : Project)
    (visit : TaskVisit) : BuildM A (Option Nat) := do
  let setupEdges ← initialEdges env fuel project visit
  let index ← insertNode (.runTask (visit.node env.fxHash))
  let taskEdges ← expandDependencies env run visit
  linkRequirements index (setupEdges ++ taskEdges)
  expandOrIgnoreDependents env run visit
  return some index

def getVisitProject : Except WorkspaceError Project :=
  match visit.task.target.getProjectId with
  | some projectId => env.workspace.getProject projectId
  | none => .error (.projectScopeRequired visit.task.target.asStr)

/-- A task that does not run in the environment is a passthrough target. -/
def visitPassthrough : BuildM A (Option Nat) := do
  modify (fun builder => { builder with
    passthroughTargets := insert visit.task.target builder.passthroughTargets })
  expandDependents env run visit visit.shouldRunDependents
  return none

/-- The rest of `internal_run_task`, for a task that is affected and runs. -/
def visitNode (fuel : Nat) (run : TaskVisit → BuildM A (Option Nat)) (project : Project)
    (visit : TaskVisit) : BuildM A (Option Nat) := do
  let hadIgnoredDependencies ← takeIgnoredDependencies visit
  let hadIgnoredDependents ← takeIgnoredDependents visit
  let builder ← get
  match builder.getIndexFromNode (.runTask (visit.node env.fxHash)) with
  | some index => revisitNode env run visit index hadIgnoredDependencies hadIgnoredDependents
  | none => visitNewNode env fuel run project visit

def internalRunTask (env : BuilderEnv A) : (fuel : Nat) → TaskVisit → BuildM A (Option Nat)
  | 0, _ => throw .outOfFuel
  | fuel + 1, visit => do
    let project ← orFail .workspace (getVisitProject env visit)
    if !(← isTaskAffected env visit.task visit.reqs) then
      return none
    else
      let builder ← get
      if visit.task.target ∈ builder.passthroughTargets then
        return none
      else if visit.isPassthrough then
        visitPassthrough env (internalRunTask env fuel) visit
      else
        visitNode env fuel (internalRunTask env fuel) project visit

/-- Only the tasks of the top level are primary targets. -/
def runTask (fuel : Nat) (task : Task) (reqs : RunRequirements) : BuildM A (Option Nat) := do
  match ← internalRunTask env fuel { task := task, reqs := reqs } with
  | some index =>
    modify (fun builder => { builder with
      primaryTargets := insert task.target builder.primaryTargets })
    return some index
  | none => return none

def runEach (env : BuilderEnv A) (fuel : Nat) (reqs : RunRequirements) :
    List Task → BuildM A (List (Nat × Target))
  | [] => return []
  | task :: tasks => do
    let index ← runTask env fuel task reqs
    let targets ← runEach env fuel reqs tasks
    return (index.map (fun index => (index, task.target))).toList ++ targets

/-- The affected status of the requested tasks is determined before any of them is run. -/
def trackRequested (reqs : RunRequirements) (tasks : List Task) : BuildM A Unit := do
  let builder ← get
  match builder.affected with
  | none => pure ()
  | some affected =>
    if reqs.skipAffected then
      pure ()
    else
      let affected ← orFail .tracker (env.tracker.trackTasks affected reqs.includeRelations tasks)
      modify (fun builder => { builder with affected := some affected })

def filterAffected (env : BuilderEnv A) (reqs : RunRequirements) : List Task → BuildM A (List Task)
  | [] => return []
  | task :: tasks => do
    let affected ← isTaskAffected env task reqs
    let rest ← filterAffected env reqs tasks
    return if affected then task :: rest else rest

/-- Only affected tasks are divided among the jobs. -/
def jobTasks (reqs : RunRequirements) (tasks : List Task) : BuildM A (List Task) :=
  if reqs.skipAffected then pure tasks else filterAffected env reqs tasks

/-- The tasks of one job. A slice that starts behind the end keeps all tasks. -/
def jobSlice (jobIndex jobTotal : Nat) (tasks : List Task) : List Task :=
  let size := (tasks.length + jobTotal - 1) / jobTotal
  let start := if jobIndex == 0 then 0 else size * jobIndex
  let stop :=
    if jobIndex == 0 then size
    else if jobIndex == jobTotal - 1 then tasks.length
    else size * (jobIndex + 1)
  if start < tasks.length then
    if stop < tasks.length then (tasks.take stop).drop start else tasks.drop start
  else tasks

/-- The tasks of the current job with the size of a job, when the tasks are partitioned. -/
def partitionTasks (reqs : RunRequirements) (tasks : List Task) :
    BuildM A (List Task × Option Nat) :=
  match reqs.job, reqs.jobTotal with
  | some jobIndex, some jobTotal =>
    if jobTotal == 0 then
      pure (tasks, none)
    else if jobIndex > jobTotal - 1 then
      throw (.invalidJobIndex jobIndex jobTotal)
    else do
      let tasks ← jobTasks env reqs tasks
      return (jobSlice jobIndex jobTotal tasks, some ((tasks.length + jobTotal - 1) / jobTotal))
  | _, _ => pure (tasks, none)

structure RunPartition where
  targets : List (Nat × Target) := []
  size : Option Nat := none
deriving DecidableEq

def runTasks (fuel : Nat) (locators : List TargetLocator) (reqs : RunRequirements) :
    BuildM A RunPartition := do
  let tasks ← orFail .workspace (locators.mapM (fun locator =>
    env.workspace.resolveTasksFromTargetLocator env.allQuery locator false))
  trackRequested env reqs tasks.flatten
  let (tasks, size) ← partitionTasks env reqs tasks.flatten
  let targets ← runEach env fuel reqs tasks
  return ⟨targets, size⟩

/-- The transitive reduction starts at the node that syncs the workspace, which has no edges, and
removes nothing. -/
def build (builder : ActionGraphBuilder A) : ActionContext × ActionGraph :=
  let context : ActionContext :=
    { ignoredDependencies := builder.ignoredDependencies
      primaryTargets := builder.primaryTargets }
  (builder.passthroughTargets.foldl (fun context target =>
    context.setTargetState target .passthrough) context, builder.graph)

end ActionGraphBuilder

end Moon
