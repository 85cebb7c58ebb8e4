import Moon.RunState

/-!
# Operations and the task executor

The operations a run records, and the retry loop that runs the command of a task.
-/

namespace Moon

inductive ActionStatus
  | aborted
  | cached
  | cachedFromRemote
  | failed
  | invalid
  | passed
  | running
  | skipped
  | timedOut
deriving DecidableEq

/-- The operations of a run. Those that stand for a process carry its exit code. -/
inductive OperationMeta
  | archiveCreation
  | hashGeneration
  | mutexAcquisition
  | noOperation
  | outputHydration (exitCode : Option Int)
  | processExecution (exitCode : Option Int)
  | taskExecution (exitCode : Option Int)
deriving DecidableEq

structure Operation where
  op : OperationMeta
  status : ActionStatus
deriving DecidableEq

namespace Operation

def isTaskExecution (operation : Operation) : Bool :=
  match operation.op with
  | .taskExecution _ => true
  | _ => false

/-- `get_exec_output().map(get_exit_code)`: a process without a code counts as `-1`. -/
def getExitCode (operation : Operation) : Option Int :=
  match operation.op with
  | .outputHydration code | .processExecution code | .taskExecution code => some (code.getD (-1))
  | _ => none

def hasFailed (operation : Operation) : Bool :=
  operation.status == .aborted || operation.status == .failed || operation.status == .timedOut

end Operation

def getLastExecution (operations : List Operation) : Option Operation :=
  operations.reverse.find? Operation.isTaskExecution

/-- An exit status is its code, `none` if a signal ended the process. There is no status if the
process was shut down. -/
inductive AttemptOutcome
  | output (status : Option (Option Int))
  | timedOut
  | crashed (error : TaskRunnerError)
deriving DecidableEq

def AttemptOutcome.success : AttemptOutcome → Bool
  | .output status => status == some (some 0)
  | _ => false

def AttemptOutcome.attempt : AttemptOutcome → Operation
  | .output status =>
    ⟨.taskExecution (status.getD none), if status == some (some 0) then .passed else .failed⟩
  | .timedOut => ⟨.taskExecution none, .timedOut⟩
  | .crashed _ => ⟨.taskExecution none, .failed⟩

structure Attempt where
  onTaskStarted : Except TaskRunnerError Unit := .ok ()
  outcome : AttemptOutcome
  onTaskFinished : Except TaskRunnerError Unit := .ok ()

structure TaskExecuteResult where
  attempts : List Operation
  error : Option TaskRunnerError
  runState : TargetState
deriving DecidableEq

/-- The loop of `TaskExecutor::execute`, with `remaining` attempts after this one. The first part is
whether the command was run at all. -/
def attemptLoop (hash : Option String) (attempts : Nat → Attempt) :
    (remaining index : Nat) → List Operation → Bool × Except TaskRunnerError TaskExecuteResult
  | remaining, index, done =>
    let current := attempts index
    match current.onTaskStarted, current.onTaskFinished with
    | .error error, _ => (!done.isEmpty, .error error)
    | .ok _, .error error => (true, .error error)
    | .ok _, .ok _ =>
      let done := done ++ [current.outcome.attempt]
      match current.outcome, remaining with
      | .crashed error, _ => (true, .ok ⟨done, some error, .failed⟩)
      | outcome, 0 =>
        (true, .ok ⟨done, none, if outcome.success then .fromHash hash else .failed⟩)
      | outcome, remaining + 1 =>
        if outcome.success then (true, .ok ⟨done, none, .fromHash hash⟩)
        else attemptLoop hash attempts remaining (index + 1) done

/-- The number of attempts is a `u8`. -/
def TaskExecutor.execute (task : Task) (hash : Option String) (attempts : Nat → Attempt) :
    Bool × Except TaskRunnerError TaskExecuteResult :=
  let attemptTotal := (task.options.retryCount + 1) % 256
  attemptLoop hash attempts (attemptTotal - 1) 1 []

end Moon
