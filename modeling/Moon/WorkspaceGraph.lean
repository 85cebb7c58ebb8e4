import Moon.TaskHashing

/-!
# The workspace graph

The projects and tasks of a workspace as the action graph builder looks them up, and the
resolution of targets and target locators to tasks.
-/

namespace Moon

inductive WorkspaceError
  | noDepsInRunContext
  | noSelfInRunContext
  | projectScopeRequired (target : String)
  | taskScopeRequired (target : String)
  | unconfiguredId (id : Id)
  | unknownTask (taskId projectId : String)
  | noDefaultProjectForTask (taskId : Id)
  | missingFromPath
  | query (message : String)
  | expand (target : Target)
deriving DecidableEq, Repr

structure WorkspaceGraph where
  projects : List Project := []
  tasks : List Task := []
  unexpandable : List Target := []
  defaultId : Option Id := none
  workingDirId : Option Id := none
  taskDependents : Target → List Target := fun _ => []
  projectDependencies : Id → List Id := fun _ => []
  projectDependents : Id → List Id := fun _ => []
  queryProjectIds : String → Except WorkspaceError (List Id) := fun _ => .ok []
  queryTaskTargets : String → Except WorkspaceError (List Target) := fun _ => .ok []

namespace WorkspaceGraph

variable (graph : WorkspaceGraph)

def resolveId (idOrAlias : String) : Id :=
  if graph.projects.any (fun project => project.id == idOrAlias) then
    idOrAlias
  else
    match graph.projects.find? (fun project => project.aliases.contains idOrAlias) with
    | some project => project.id
    | none => idOrAlias

def getProject (idOrAlias : String) : Except WorkspaceError Project :=
  match graph.projects.find? (fun project => project.id == graph.resolveId idOrAlias) with
  | some project => .ok project
  | none => .error (.unconfiguredId (graph.resolveId idOrAlias))

def getTask (target : Target) : Except WorkspaceError Task :=
  match graph.tasks.find? (fun task => task.target == target) with
  | some task =>
    if graph.unexpandable.contains target then .error (.expand target) else .ok task
  | none => .error (.unknownTask target.task.asStr target.project.asStr)

def getTaskFromProject (projectIdOrAlias taskId : String) : Except WorkspaceError Task :=
  graph.getTask (Target.new (graph.resolveId projectIdOrAlias) taskId)

def getTasksFromProject (projectId : Id) : Except WorkspaceError (List Task) := do
  let targets := (graph.tasks.map (·.target)).filter (fun target =>
    target.getProjectId == some projectId)
  let tasks ← targets.mapM graph.getTask
  return tasks.filter (fun task => !task.isInternal)

def queryProjects (query : String) : Except WorkspaceError (List Project) := do
  (← graph.queryProjectIds query).mapM graph.getProject

def queryTasks (query : String) : Except WorkspaceError (List Task) := do
  (← graph.queryTaskTargets query).mapM graph.getTask

def targetProjects (allQuery : Option String) (target : Target) :
    Except WorkspaceError (List Project × Bool) :=
  match target.project with
  | .all => do
    let projects ← match allQuery with
      | some query => graph.queryProjects query
      | none => .ok graph.projects
    return (projects, false)
  | .id value => do return ([← graph.getProject value], true)
  | .tag value => do return (← graph.queryProjects ("projectTag=" ++ value), false)
  | .deps | .depsOf _ => .error .noDepsInRunContext
  | .ownSelf => .error .noSelfInRunContext

def projectTasks (bubbleError : Bool) (scope : TargetTaskScope) (project : Project) :
    Except WorkspaceError (List Task) :=
  match scope with
  | .id taskId =>
    match graph.getTaskFromProject project.id taskId with
    | .ok task => .ok [task]
    | .error error => if bubbleError then .error error else .ok []
  | .tag tag => do
    return (← graph.getTasksFromProject project.id).filter (fun task => task.tags.contains tag)

/-- Internal tasks are left out, or are an error where the project is named. -/
def withoutInternal (bubbleError : Bool) (project : Project) :
    List Task → Except WorkspaceError (List Task)
  | [] => .ok []
  | task :: tasks =>
    if task.isInternal then
      if bubbleError then .error (.unknownTask task.target.task.asStr project.id)
      else withoutInternal bubbleError project tasks
    else do return task :: (← withoutInternal bubbleError project tasks)

def resolveTasksFromTarget (allQuery : Option String) (target : Target) (allowInternal : Bool) :
    Except WorkspaceError (List Task) := do
  let (projects, bubbleError) ← graph.targetProjects allQuery target
  let tasks ← projects.mapM (fun project => do
    let tasks ← graph.projectTasks bubbleError target.task project
    if allowInternal then return tasks else withoutInternal bubbleError project tasks)
  return tasks.flatten

/-- The part of a glob after a leading `#`. -/
def stripTag (glob : String) : Option String :=
  match glob.toList with
  | '#' :: rest => some (String.ofList rest)
  | _ => none

def taskQuery (taskGlob : String) (projects : Option (List Project)) : String :=
  let query := match stripTag taskGlob with
    | some tagGlob => "taskTag~" ++ tagGlob
    | none => "task~" ++ taskGlob
  match projects with
  | some projects =>
    "project=[" ++ ",".intercalate (projects.map (·.id)) ++ "] && " ++ query
  | none => query

/-- The target of a qualified locator, where `~` stands for the project of the working
directory. -/
def qualifiedTarget (target : Target) : Except WorkspaceError Target :=
  match target.project with
  | .ownSelf =>
    match graph.workingDirId, target.getTaskId with
    | none, _ => .error .missingFromPath
    | some _, none => .error (.taskScopeRequired target.asStr)
    | some projectId, some taskId => .ok (Target.new projectId taskId)
  | _ => .ok target

def resolveTasksFromTargetLocator (allQuery : Option String) (locator : TargetLocator)
    (allowInternal : Bool) : Except WorkspaceError (List Task) :=
  let queried (query : String) : Except WorkspaceError (List Task) := do
    return (← graph.queryTasks query).filter (fun task => allowInternal || !task.isInternal)
  match locator with
  | .globMatch _ (some projectGlob) taskGlob => do
    let projects ← graph.queryProjects (match stripTag projectGlob with
      | some tagGlob => "projectTag~" ++ tagGlob
      | none => "project~" ++ projectGlob)
    if projects.isEmpty then return [] else queried (taskQuery taskGlob (some projects))
  | .globMatch (some .all) none taskGlob => queried (taskQuery taskGlob none)
  | .globMatch _ none _ => .ok []
  | .qualified target => do
    let target ← graph.qualifiedTarget target
    graph.resolveTasksFromTarget allQuery target allowInternal
  | .defaultProject taskId =>
    match graph.defaultId.map graph.getProject with
    | some (.ok project) =>
      graph.resolveTasksFromTarget allQuery (Target.new project.id taskId) allowInternal
    | _ => .error (.noDefaultProjectForTask taskId)

end WorkspaceGraph

end Moon
