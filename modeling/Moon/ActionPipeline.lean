import Moon.JobDispatcher
import Moon.TaskRunner

/-!
# The action pipeline

A job starts once the dependencies of its node are completed. It reads the states of other targets
then, and records that of its own when it ends.
-/

namespace Moon

open Moon.Lib

structure ActionPipeline where
  context : ActionContext
  visited : Finset Nat := ∅
  completed : Finset Nat := ∅
  running : Finset Nat := ∅
  recorded : Finset Nat := ∅
  reports : Map Nat TaskRunner.RunReport := ∅
  persistentIndices : List Nat := []
  persistentPhase : Bool := false
  aborted : Bool := false

inductive PipelineEvent
  /-- The dispatcher returns a node that is not persistent, and its job starts. -/
  | start (index : Nat) (env : RunEnv) (file : Option TaskRunCacheState)
  /-- The job ends, which sets the state of its target. -/
  | record (index : Nat)
  | complete (index : Nat)
  /-- The dispatcher returns a persistent node, which counts as completed at once. -/
  | defer (index : Nat)
  /-- All other jobs are done, and the states of the persistent targets are set early. -/
  | runPersistent
  | startPersistent (index : Nat) (env : RunEnv) (file : Option TaskRunCacheState)
  /-- A hard failure or a signal, after which no further job starts. -/
  | abort

namespace ActionPipeline

variable (graph : ActionGraph)

def isPersistentNode (index : Nat) : Bool := graph.nodes[index]?.any ActionNode.isPersistent

def dispatchable (pipeline : ActionPipeline) (index : Nat) : Bool :=
  !pipeline.aborted && !pipeline.persistentPhase && decide (index < graph.nodes.length) &&
    decide (index ∉ pipeline.visited) &&
    decide (∀ depIndex ∈ graph.neighbors index, depIndex ∈ pipeline.completed)

/-- Only a `RunTask` node of a known task runs a task. -/
def runTask (tasks : Target → Option Task) (env : RunEnv) (file : Option TaskRunCacheState)
    (context : ActionContext) (node : Option ActionNode) : Option TaskRunner.RunReport :=
  match node with
  | some (.runTask inner) => (tasks inner.target).map (fun task =>
      TaskRunner.run env task file context)
  | _ => none

def startJob (tasks : Target → Option Task) (pipeline : ActionPipeline) (index : Nat)
    (env : RunEnv) (file : Option TaskRunCacheState) : ActionPipeline :=
  { pipeline with
    visited := insert index pipeline.visited
    running := insert index pipeline.running
    reports :=
      match runTask tasks env file pipeline.context graph.nodes[index]? with
      | some report => pipeline.reports.insert index report
      | none => pipeline.reports }

def recordState (pipeline : ActionPipeline) (index : Nat) : ActionContext :=
  match graph.nodes[index]?, (pipeline.reports.lookup index).bind
      TaskRunner.RunReport.targetState with
  | some (.runTask inner), some state => pipeline.context.setTargetState inner.target state
  | _, _ => pipeline.context

/-- The states of the persistent tasks, which never finish, are set before they start. -/
def setPersistentState (context : ActionContext) (index : Nat) : ActionContext :=
  match graph.nodes[index]? with
  | some (.runTask inner) => context.setTargetState inner.target .passthrough
  | _ => context

def step (tasks : Target → Option Task) (pipeline : ActionPipeline) :
    PipelineEvent → Option ActionPipeline
  | .start index env file =>
    if pipeline.dispatchable graph index && !isPersistentNode graph index then
      some (pipeline.startJob graph tasks index env file)
    else none
  | .record index =>
    if index ∈ pipeline.running then
      some { pipeline with
        context := pipeline.recordState graph index
        running := pipeline.running.erase index
        recorded := insert index pipeline.recorded }
    else none
  | .complete index =>
    if index ∈ pipeline.recorded then
      some { pipeline with completed := insert index pipeline.completed }
    else none
  | .defer index =>
    if pipeline.dispatchable graph index && isPersistentNode graph index then
      some { pipeline with
        visited := insert index pipeline.visited
        completed := insert index pipeline.completed
        persistentIndices := pipeline.persistentIndices ++ [index] }
    else none
  | .runPersistent =>
    if !pipeline.aborted && !pipeline.persistentPhase &&
        decide (∀ index < graph.nodes.length, index ∈ pipeline.visited ∧
          index ∈ pipeline.completed) then
      some { pipeline with
        context := pipeline.persistentIndices.foldl (setPersistentState graph) pipeline.context
        persistentPhase := true }
    else none
  | .startPersistent index env file =>
    if pipeline.persistentPhase && decide (index ∈ pipeline.persistentIndices) &&
        decide (index ∉ pipeline.running ∧ index ∉ pipeline.recorded) then
      some (pipeline.startJob graph tasks index env file)
    else none
  | .abort => some { pipeline with aborted := true }

end ActionPipeline

end Moon
