import Moon.ActionGraphBuilder

/-!
# The affected tracker

`AffectedTracker` marks the projects and tasks that changes affect.
-/

namespace Moon

open Moon.Lib

inductive AffectedBy
  | alreadyMarked
  | alwaysAffected
  | changedFile (file : WorkspaceRelativePath)
  | downstreamProject (id : Id)
  | downstreamTask (target : Target)
  | environmentVariable (name : String)
  | task (target : Target)
  | upstreamProject (id : Id)
  | upstreamTask (target : Target)
deriving DecidableEq

def AffectedBy.isDirect : AffectedBy → Bool
  | .alwaysAffected | .changedFile _ | .environmentVariable _ => true
  | _ => false

inductive ChangedInput
  | file (path : WorkspaceRelativePath)
  | environmentVariable (name : String)
deriving DecidableEq

def ChangedInput.affectedBy : ChangedInput → AffectedBy
  | .file path => .changedFile path
  | .environmentVariable name => .environmentVariable name

structure AffectedMarks where
  projects : Map Id (List AffectedBy) := ∅
  tasks : Map Target (List AffectedBy) := ∅

/-- What a tracker reads and never changes. Matching changed files and variables is left open. -/
structure AffectedTrackerConfig where
  workspace : WorkspaceGraph
  ci : Bool := false
  projectUpstream : UpstreamScope := .deep
  projectDownstream : DownstreamScope := .none
  taskUpstream : UpstreamScope := .deep
  taskDownstream : DownstreamScope := .none
  changedInput : Task → Except String (Option ChangedInput) := fun _ => .ok none
  changedSource : Project → Option WorkspaceRelativePath := fun _ => none

section Walk

variable {K N : Type} [DecidableEq K]

def insertMark (marks : Map K (List AffectedBy)) (key : K) (reason : AffectedBy) :
    Map K (List AffectedBy) :=
  marks.insert key (insert reason ((marks.lookup key).getD []))

def markRelations (descend : K → Map K (List AffectedBy) → Finset K →
      Except String (Map K (List AffectedBy) × Finset K)) (reason : AffectedBy)
    (direct : Bool) : List K → Map K (List AffectedBy) → Finset K →
      Except String (Map K (List AffectedBy) × Finset K)
  | [], marks, cycle => .ok (marks, cycle)
  | related :: rest, marks, cycle =>
    let marks := insertMark marks related reason
    if direct then
      markRelations descend reason direct rest marks cycle
    else do
      let (marks, cycle) ← descend related marks cycle
      markRelations descend reason direct rest marks cycle

/-- The four walks of a tracker. No item is visited twice, so the recursion is at most one deeper
than their number. -/
def trackRelations (key : N → K) (load : K → Except String N) (relations : N → List K)
    (reason : K → AffectedBy) (isNone isDirect : Bool) :
    (fuel : Nat) → (depth : UInt16) → N → Map K (List AffectedBy) → Finset K →
      Except String (Map K (List AffectedBy) × Finset K)
  | 0, _, _, marks, cycle => .ok (marks, cycle)
  | fuel + 1, depth, item, marks, cycle =>
    if key item ∈ cycle then
      .ok (marks, cycle)
    else if isNone then
      .ok (marks, insert (key item) cycle)
    else
      markRelations (fun related marks cycle => do
          let item ← load related
          trackRelations key load relations reason isNone isDirect fuel (depth + 1) item marks
            cycle)
        (reason (key item)) (depth == 0 && isDirect) (relations item) marks
        (insert (key item) cycle)

end Walk

namespace AffectedMarks

variable (config : AffectedTrackerConfig)

variable (marks : AffectedMarks)

def isTaskMarked (task : Task) : Bool := (marks.tasks.lookup task.target).isSome

def isTaskMarkedIgnoringRelations (task : Task) : Bool :=
  (marks.tasks.lookup task.target).any (fun reasons => reasons.any AffectedBy.isDirect)

variable (project : Project)

def isProjectMarked : Bool := (marks.projects.lookup project.id).isSome

def isProjectMarkedIgnoringRelations : Bool :=
  (marks.projects.lookup project.id).any (fun reasons => reasons.any AffectedBy.isDirect)

def orError {α : Type} (result : Except WorkspaceError α) : Except String α :=
  result.mapError reprStr

def isProjectAffected : Option AffectedBy :=
  if marks.isProjectMarkedIgnoringRelations project then
    some .alreadyMarked
  else
    (config.changedSource project).map .changedFile

def trackProjectDependencies (marks : AffectedMarks) : Except String AffectedMarks := do
  let (projects, _) ← trackRelations Project.id
    (fun id => orError (config.workspace.getProject id)) Project.getDependencyIds
    .downstreamProject (config.projectUpstream == .none) (config.projectUpstream == .direct)
    (config.workspace.projects.length + 2) 0 project marks.projects ∅
  return { marks with projects := projects }

def trackProjectDependents (marks : AffectedMarks) : Except String AffectedMarks := do
  let (projects, _) ← trackRelations Project.id (fun id => orError (config.workspace.getProject id))
    (fun project => config.workspace.projectDependents project.id)
    .upstreamProject (config.projectDownstream == .none) (config.projectDownstream == .direct)
    (config.workspace.projects.length + 2) 0 project marks.projects ∅
  return { marks with projects := projects }

def markProjectAffected (affected : AffectedBy) (marks : AffectedMarks) :
    Except String AffectedMarks := do
  let marks := if affected = .alreadyMarked then marks
    else { marks with projects := insertMark marks.projects project.id affected }
  let marks ← trackProjectDependencies config project marks
  trackProjectDependents config project marks

section

variable (task : Task)

def isTaskAffected : Except String (Option AffectedBy) :=
  if marks.isTaskMarkedIgnoringRelations task then
    .ok (some .alreadyMarked)
  else
    match config.ci, task.options.runInCI with
    | true, .always => .ok (some .alwaysAffected)
    | true, .enabled false | true, .skip | false, .only => .ok none
    | _, _ => return (← config.changedInput task).map ChangedInput.affectedBy

def trackTaskDependencies (marks : AffectedMarks) : Except String AffectedMarks := do
  let (tasks, _) ← trackRelations Task.target
    (fun target => orError (config.workspace.getTask target))
    (fun task => task.deps.map (·.target))
    .downstreamTask (config.taskUpstream == .none) (config.taskUpstream == .direct)
    (config.workspace.tasks.length + 2) 0 task marks.tasks ∅
  return { marks with tasks := tasks }

def trackTaskDependents (marks : AffectedMarks) : Except String AffectedMarks := do
  let (tasks, _) ← trackRelations Task.target
    (fun target => orError (config.workspace.getTask target))
    (fun task => config.workspace.taskDependents task.target)
    .upstreamTask (config.taskDownstream == .none) (config.taskDownstream == .direct)
    (config.workspace.tasks.length + 2) 0 task marks.tasks ∅
  return { marks with tasks := tasks }

/-- The project of a task is marked along with it. -/
def markTaskProject (marks : AffectedMarks) : AffectedMarks :=
  match task.target.getProjectId with
  | some projectId =>
    { marks with projects := insertMark marks.projects projectId (.task task.target) }
  | none => marks

def markTaskAffected (affected : AffectedBy) (marks : AffectedMarks) :
    Except String AffectedMarks :=
  if affected = .alreadyMarked then do
    let marks ← trackTaskDependencies config task marks
    trackTaskDependents config task marks
  else do
    let marks := { marks with tasks := insertMark marks.tasks task.target affected }
    let marks ← trackTaskDependencies config task marks
    let marks ← trackTaskDependents config task marks
    return markTaskProject task marks

def affectTask : Except String (Option AffectedMarks) := do
  match ← isTaskAffected config marks task with
  | some affected => return some (← markTaskAffected config task affected marks)
  | none => return none

end

def trackTasksByInstance (marks : AffectedMarks) : List Task → Except String AffectedMarks
  | [] => .ok marks
  | task :: tasks => do
    match ← affectTask config marks task with
    | some marks => trackTasksByInstance marks tasks
    | none => trackTasksByInstance marks tasks

def trackTasks : Except String AffectedMarks := do
  let tasks ← (config.workspace.tasks.map (·.target)).mapM (fun target =>
    orError (config.workspace.getTask target))
  trackTasksByInstance config marks tasks

def trackTasksByTarget (marks : AffectedMarks) : List Target → Except String AffectedMarks
  | [] => .ok marks
  | target :: targets => do
    let task ← orError (config.workspace.getTask target)
    match ← affectTask config marks task with
    | some marks => trackTasksByTarget marks targets
    | none => trackTasksByTarget marks targets

def affectProject : Except String (Option AffectedMarks) :=
  match isProjectAffected config marks project with
  | some affected => return some (← markProjectAffected config project affected marks)
  | none => return none

def trackEachProject (marks : AffectedMarks) : List Project → Except String AffectedMarks
  | [] => .ok marks
  | project :: projects => do
    match ← affectProject config marks project with
    | some marks => trackEachProject marks projects
    | none => trackEachProject marks projects

def trackProjects : Except String AffectedMarks := do
  let projects ← (config.workspace.projects.map (·.id)).mapM (fun id =>
    orError (config.workspace.getProject id))
  trackEachProject config marks projects

end AffectedMarks

inductive TrackCall
  | projects
  | tasks
  | tasksByInstance (tasks : List Task)
  | tasksByTarget (targets : List Target)

def TrackCall.run (config : AffectedTrackerConfig) (marks : AffectedMarks) :
    TrackCall → Except String AffectedMarks
  | .projects => AffectedMarks.trackProjects config marks
  | .tasks => AffectedMarks.trackTasks config marks
  | .tasksByInstance listed => AffectedMarks.trackTasksByInstance config marks listed
  | .tasksByTarget targets => AffectedMarks.trackTasksByTarget config marks targets

def affectedTracker (config : AffectedTrackerConfig) : AffectedTracker AffectedMarks where
  isTaskMarked marks includeRelations task :=
    if includeRelations then marks.isTaskMarked task
    else marks.isTaskMarkedIgnoringRelations task
  affectTask := AffectedMarks.affectTask config
  isProjectMarked marks includeRelations project :=
    if includeRelations then marks.isProjectMarked project
    else marks.isProjectMarkedIgnoringRelations project
  affectProject := AffectedMarks.affectProject config
  trackTasks marks includeRelations tasks :=
    if includeRelations then AffectedMarks.trackTasks config marks
    else AffectedMarks.trackTasksByInstance config marks tasks

end Moon
