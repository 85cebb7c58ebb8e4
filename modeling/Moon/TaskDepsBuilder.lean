import Moon.TaskHashing

/-!
# Task dependency builder

`TaskDepsBuilder::build` resolves the declared dependencies of a task to fully qualified
targets, in declaration order, and keeps one copy of each resolved entry.
-/

namespace Moon

inductive TasksBuilderError
  | allowFailureDepRequirement (dep task : Target)
  | runInCiDepRequirement (dep task : Target)
  | persistentDepRequirement (dep task : Target)
  | unknownDepTarget (dep task : Target)
  | unknownDepTargetParentScope (dep task : Target)
  | unknownDepTargetTagScope (dep task : Target)
  | unsupportedTargetScopeInDeps (dep task : Target)
  | taskScopeRequired (target : Target)
  | query (message : String)
deriving DecidableEq

structure TasksQuerent where
  queryProjectsByTag : String → Except TasksBuilderError (List Id)
  queryTasks : List Id → TargetTaskScope → Except TasksBuilderError (List (Target × TaskOptions))
  queryTaskHasOutputs : Target → Bool

def TargetDependencyScope.toDependencyScope : TargetDependencyScope → DependencyScope
  | .build => .build
  | .development => .development
  | .peer => .peer
  | .production => .production

variable (querent : TasksQuerent)

/-- The projects a declared dependency looks in, whether no result is fine, and whether the
projects found become implicit project dependencies. -/
def depProjectScope (project : Project) (task : Target) (depConfig : TaskDependencyConfig) :
    Except TasksBuilderError (List Id × Bool × Bool) :=
  match depConfig.target.project with
  | .all => .error (.unsupportedTargetScopeInDeps depConfig.target task)
  | .deps =>
    .ok (project.dependencies.map (·.id), depConfig.optional.getD true, false)
  | .depsOf scope =>
    .ok ((project.dependencies.filter (fun dep => dep.scope == scope.toDependencyScope)).map (·.id),
      depConfig.optional.getD true, false)
  | .ownSelf => .ok ([project.id], depConfig.optional.getD false, false)
  | .id value => .ok ([value], depConfig.optional.getD false, true)
  | .tag value => do
    let ids ← querent.queryProjectsByTag value
    .ok (ids.filter (· != project.id), depConfig.optional.getD true, true)

def unknownDepError (task : Target) (depConfig : TaskDependencyConfig) : TasksBuilderError :=
  match depConfig.target.project with
  | .deps | .depsOf _ => .unknownDepTargetParentScope depConfig.target task
  | .tag _ => .unknownDepTargetTagScope depConfig.target task
  | _ => .unknownDepTarget depConfig.target task

def checkAndCreateDep (task : Task) (depTaskTarget : Target) (depTaskOptions : TaskOptions)
    (depConfig : TaskDependencyConfig) : Except TasksBuilderError TaskDependencyConfig :=
  if depTaskOptions.allowFailure then
    .error (.allowFailureDepRequirement depTaskTarget task.target)
  else if !depTaskOptions.runInCI.isEnabled && task.options.runInCI.isEnabled &&
      depTaskOptions.runInCI != .skip && task.options.runInCI != .skip then
    .error (.runInCiDepRequirement depTaskTarget task.target)
  else if depTaskOptions.persistent && !task.options.persistent then
    .error (.persistentDepRequirement depTaskTarget task.target)
  else
    .ok { depConfig with
      target := depTaskTarget
      cacheStrategy := depConfig.cacheStrategy.or (some
        (if querent.queryTaskHasOutputs depTaskTarget then .hash else .ignored)) }

def createProjectDepFromTaskDep (taskDep : TaskDependencyConfig) (projectId : Id)
    (rootProjectId : Option Id) (alreadyExists : Id → Bool) : Option ProjectDependencyConfig :=
  match taskDep.target.getProjectId with
  | none => none
  | some depProjectId =>
    if projectId == depProjectId || alreadyExists depProjectId then none
    else some
      { scope := if rootProjectId == some depProjectId then .root else .build
        id := depProjectId
        source := .implicit
        via := some ("task " ++ taskDep.target.asStr) }

structure DepsState where
  deps : List TaskDependencyConfig := []
  project : Project

def buildDepResult (rootProjectId : Option Id) (task : Task) (depConfig : TaskDependencyConfig)
    (linkImplicitProjectDeps : Bool) (state : DepsState) (result : Target × TaskOptions) :
    Except TasksBuilderError DepsState := do
  -- Avoid circular references
  let isSelf ←
    if result.1.getProjectId == some state.project.id then
      match result.1.getTaskId, task.target.getTaskId with
      | some depTaskId, some taskId => .ok (depTaskId == taskId)
      | none, _ => .error (.taskScopeRequired result.1)
      | _, none => .error (.taskScopeRequired task.target)
    else .ok false
  if isSelf then return state
  let taskDep ← checkAndCreateDep querent task result.1 result.2 depConfig
  let projectDep :=
    if linkImplicitProjectDeps then
      createProjectDepFromTaskDep taskDep state.project.id rootProjectId (fun depProjectId =>
        state.project.aliases.contains depProjectId ||
          state.project.dependencies.any (fun dep => dep.id == depProjectId))
    else none
  let project :=
    { state.project with dependencies := state.project.dependencies ++ projectDep.toList }
  return { deps := if state.deps.contains taskDep then state.deps else state.deps ++ [taskDep]
           project := project }

def buildDep (rootProjectId : Option Id) (task : Task) (state : DepsState)
    (depConfig : TaskDependencyConfig) :
    Except TasksBuilderError DepsState := do
  let (projectIds, skipIfMissing, linkImplicitProjectDeps) ←
    depProjectScope querent state.project task.target depConfig
  let results ← querent.queryTasks projectIds depConfig.target.task
  if results.isEmpty && !skipIfMissing then
    throw (unknownDepError task.target depConfig)
  results.foldlM (buildDepResult querent rootProjectId task depConfig linkImplicitProjectDeps) state

def TaskDepsBuilder.build (rootProjectId : Option Id) (project : Project) (task : Task) :
    Except TasksBuilderError (Project × Task) := do
  let state ← task.deps.foldlM (buildDep querent rootProjectId task) { project := project }
  return (state.project, { task with deps := state.deps })

end Moon
