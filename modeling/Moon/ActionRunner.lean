import Moon.ActionGraph
import Moon.TaskExecutor

/-!
# Running an action

`run_action` wraps the operation of a node in events.
-/

namespace Moon

structure Action where
  allowFailure : Bool := false
  error : Option String := none
  node : ActionNode
  nodeIndex : Nat
  operations : List Operation := []
  status : ActionStatus := .running
deriving DecidableEq

namespace Action

def new (node : ActionNode) (nodeIndex : Nat) : Action := { node := node, nodeIndex := nodeIndex }

variable (action : Action)

def abort : Action := { action with status := .aborted }

def finish (status : ActionStatus) : Action := { action with status := status }

def fail (error : String) : Action := { action with error := some error }

def hasFailed : Bool :=
  action.status == .aborted || action.status == .failed || action.status == .timedOut

/-- A task that failed before its command was spawned has an aborted execution. -/
def shouldAbort : Bool :=
  action.status == .aborted ||
    (getLastExecution action.operations).any (fun exec => exec.status == .aborted)

def shouldBail : Bool := !action.allowFailure && action.hasFailed

end Action

inductive EventType
  | actionStarted
  | actionCompleted
  | dependenciesInstalling
  | dependenciesInstalled
  | environmentInitializing
  | environmentInitialized
  | projectSyncing
  | projectSynced
  | taskRunning
  | taskRan
  | toolchainInstalling
  | toolchainInstalled
  | workspaceSyncing
  | workspaceSynced
deriving DecidableEq

structure OperationOutcome where
  result : Except String ActionStatus
  operations : List Operation := []
  allowFailure : Bool := false

structure ActionRunEnv where
  emit : EventType → Bool
  hasProject : Id → Bool
  outcome : OperationOutcome

def operationEvents : ActionNode → Option (EventType × EventType)
  | .none => none
  | .installDependencies _ => some (.dependenciesInstalling, .dependenciesInstalled)
  | .runTask _ => some (.taskRunning, .taskRan)
  | .setupEnvironment _ => some (.environmentInitializing, .environmentInitialized)
  | .setupProto _ => none
  | .setupToolchain _ => some (.toolchainInstalling, .toolchainInstalled)
  | .syncProject _ => some (.projectSyncing, .projectSynced)
  | .syncWorkspace => some (.workspaceSyncing, .workspaceSynced)

def operationProject : ActionNode → Option Id
  | .installDependencies inner => inner.projectId
  | .setupEnvironment inner => inner.projectId
  | .syncProject projectId => some projectId
  | _ => none

def shouldAbortOnFailure : ActionNode → Bool
  | .setupProto _ | .setupToolchain _ | .setupEnvironment _ | .installDependencies _ => true
  | _ => false

section Run

variable (env : ActionRunEnv)

/-- The operation itself. Only a task may be allowed to fail. -/
def performOperation (action : Action) : Action × Except String ActionStatus :=
  match action.node with
  | .none => (action, .ok .skipped)
  | node =>
    ({ action with
      operations := action.operations ++ env.outcome.operations
      allowFailure := node.isRunTask && env.outcome.allowFailure }, env.outcome.result)

/-- The `match` of `run_action`, without a result if it was left early. -/
def runOperation (action : Action) : Action × Option (Except String ActionStatus) :=
  if (operationProject action.node).any (fun projectId => !env.hasProject projectId) then
    (action, none)
  else
    match operationEvents action.node with
    | none =>
      let (action, result) := performOperation env action
      (action, some result)
    | some (before, after) =>
      if !env.emit before then (action, none)
      else
        let (action, result) := performOperation env action
        if !env.emit after then (action, none) else (action, some result)

def Action.conclude (action : Action) : Except String ActionStatus → Action
  | .ok status => action.finish status
  | .error error => (action.finish .failed).fail error

/-- `run_action`, and whether it returns without an error. -/
def runAction (action : Action) : Action × Bool :=
  if !env.emit .actionStarted then (action, false)
  else
    match runOperation env action with
    | (action, none) => (action, false)
    | (action, some result) =>
      let action := action.conclude result
      if !env.emit .actionCompleted then (action, false)
      else if action.hasFailed && shouldAbortOnFailure action.node then (action.abort, true)
      else (action, true)

end Run

end Moon
