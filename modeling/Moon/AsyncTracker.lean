import Moon.AffectedTracker
import Moon.PooledTasks

/-!
# The asynchronous trackers

Each project or task gets a tracker of its own, which starts without marks.
-/

namespace Moon

open Moon.Lib

/-- `entry(key).or_default().extend(affected)`, for each entry of another tracker. -/
def extendMarks {K : Type} [DecidableEq K] (marks tracked : Map K (List AffectedBy)) :
    Map K (List AffectedBy) :=
  marks.merge (fun reasons affected =>
    affected.foldl (fun acc reason => insert reason acc) (reasons.getD [])) tracked

namespace ProjectTracker

variable (config : AffectedTrackerConfig)

def isProjectAffected (project : Project) : Option AffectedBy :=
  (config.changedSource project).map .changedFile

/-- `tracked` is kept as the projects of the marks. -/
def track (project : Project) : Except String AffectedMarks :=
  match isProjectAffected config project with
  | some affected => AffectedMarks.markProjectAffected config project affected {}
  | none => .ok {}

end ProjectTracker

namespace TaskTracker

variable (config : AffectedTrackerConfig)

def isTaskAffected (task : Task) : Except String (Option AffectedBy) :=
  match config.ci, task.options.runInCI with
  | true, .always => .ok (some .alwaysAffected)
  | true, .enabled false | true, .skip | false, .only => .ok none
  | _, _ => return (← config.changedInput task).map ChangedInput.affectedBy

/-- `tracked` and `tracked_projects` are kept as the tasks and projects of the marks. -/
def track (task : Task) : Except String AffectedMarks := do
  match ← isTaskAffected config task with
  | some affected => AffectedMarks.markTaskAffected config task affected {}
  | none => return {}

end TaskTracker

namespace AffectedMarks

variable (config : AffectedTrackerConfig) (concurrency : Nat) (joinNext : Nat → Nat)

variable (marks : AffectedMarks)

def trackProjectsAsync : Except String AffectedMarks := do
  let projects ← (config.workspace.projects.map (·.id)).mapM (fun id =>
    orError (config.workspace.getProject id))
  runPooledTasks concurrency (fun project => .ok (ProjectTracker.track config project))
    (fun marks tracker =>
      .ok { marks with projects := extendMarks marks.projects tracker.projects })
    joinNext projects marks

def trackTasksByInstanceAsync (tasks : List Task) :
    Except String AffectedMarks :=
  runPooledTasks concurrency (fun task => .ok (TaskTracker.track config task))
    (fun marks tracker => .ok
      { projects := extendMarks marks.projects tracker.projects
        tasks := extendMarks marks.tasks tracker.tasks })
    joinNext tasks marks

def trackTasksAsync : Except String AffectedMarks := do
  let tasks ← (config.workspace.tasks.map (·.target)).mapM (fun target =>
    orError (config.workspace.getTask target))
  trackTasksByInstanceAsync config concurrency joinNext marks tasks

def trackTasksByTargetAsync (targets : List Target) :
    Except String AffectedMarks := do
  let tasks ← targets.mapM (fun target => orError (config.workspace.getTask target))
  trackTasksByInstanceAsync config concurrency joinNext marks tasks

end AffectedMarks

def TrackCall.runAsync (config : AffectedTrackerConfig) (concurrency : Nat)
    (joinNext : Nat → Nat) (marks : AffectedMarks) : TrackCall → Except String AffectedMarks
  | .projects => AffectedMarks.trackProjectsAsync config concurrency joinNext marks
  | .tasks => AffectedMarks.trackTasksAsync config concurrency joinNext marks
  | .tasksByInstance listed =>
    AffectedMarks.trackTasksByInstanceAsync config concurrency joinNext marks listed
  | .tasksByTarget targets =>
    AffectedMarks.trackTasksByTargetAsync config concurrency joinNext marks targets

end Moon
