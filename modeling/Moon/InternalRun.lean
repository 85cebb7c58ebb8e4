import Moon.ActionRunner
import Moon.JobDispatcher

/-!
# The jobs of a pipeline

The dispatch loop, its jobs and the receiver of their results share two tokens and the sets of
running and completed jobs, and take their steps in any order.
-/

namespace Moon

inductive JobPhase
  | queued
  | running
  /-- `run_action` has returned. -/
  | ran (action : Action)
  /-- `send_result` is called. -/
  | sending (action : Action)
  /-- The abort token is dealt with. -/
  | signalled (action : Action)
  /-- Removed from the running jobs. -/
  | removed (action : Action)
  /-- Inserted into the completed jobs. -/
  | completed (action : Action)
  | finished
  | killed
deriving DecidableEq

/-- Where the task of `dispatch_jobs` stands. -/
inductive LoopPhase
  | top
  | calling
  | dispatching (index : Nat)
  | joining
  /-- Waiting for all of the handles, of an interactive job or at the end of the loop. -/
  | exhausting (interactive : Bool)
  | returned
deriving DecidableEq

structure PipelineRun where
  dispatcher : JobDispatcher
  abortToken : Bool := false
  cancelToken : Bool := false
  jobs : Nat → Option JobPhase := fun _ => none
  handles : Finset Nat := ∅
  loop : LoopPhase := .top
  persistentIndices : List Nat := []
  results : List Action := []
  /-- The actions whose `run_action` was called, the last one first. -/
  started : List Nat := []
  /-- The actions that had failed when `run_action` returned. -/
  failed : Finset Nat := ∅

/-- Steps of the loop, the jobs and the receiver. -/
inductive PipelineRunEvent
  | loop
  | join (index : Nat)
  | begin (index : Nat)
  | ran (index : Nat) (env : ActionRunEnv)
  | settle (index : Nat)
  | signal (index : Nat)
  | removeRunning (index : Nat)
  | insertCompleted (index : Nat)
  | send (index : Nat)
  | receive
  | cancel
  /-- After an abort or a signal the loop and the jobs may be ended from outside. -/
  | shutdown
  | kill (index : Nat)

def shouldAbortPipeline (bail : Bool) (action : Action) : Bool :=
  action.shouldAbort || bail && action.shouldBail

namespace PipelineRun

variable (graph : ActionGraph) (bail : Bool)

def new (topoIndices : List Nat) : PipelineRun :=
  { dispatcher := JobDispatcher.new graph topoIndices }

variable (run : PipelineRun)

def isAbortedOrCancelled : Bool := run.abortToken || run.cancelToken

def setJob (index : Nat) (phase : JobPhase) : PipelineRun :=
  { run with jobs := Function.update run.jobs index (some phase) }

/-- `mark_completed` from the loop, which no other step can fall into. -/
def markCompleted (index : Nat) : Option PipelineRun := do
  let dispatcher ← run.dispatcher.step graph (.removeRunning index)
  let dispatcher ← dispatcher.step graph (.insertCompleted index)
  return { run with dispatcher := dispatcher }

/-- One step of `next`. When it returns, the loop has a node or waits. -/
def poll : PipelineRun :=
  let dispatcher := run.dispatcher.poll graph
  { run with
    dispatcher := dispatcher
    loop :=
      if dispatcher.next = .idle then
        match dispatcher.returned with
        | some index :: _ => .dispatching index
        | _ => .joining
      else .calling }

def dispatchNode (index : Nat) : Option PipelineRun :=
  match graph.nodes[index]? with
  | none => do
    let run ← run.markCompleted graph index
    return { run with loop := .top }
  | some node =>
    if node.isPersistent then do
      let run ← run.markCompleted graph index
      return { run with loop := .top, persistentIndices := run.persistentIndices ++ [index] }
    else
      some { run.setJob index .queued with
        handles := insert index run.handles
        loop := if node.isInteractive then .exhausting true else .top }

def spawnPersistent : PipelineRun :=
  { run with
    jobs := fun index => if index ∈ run.persistentIndices then some .queued else run.jobs index
    handles := run.handles ∪ run.persistentIndices.toFinset
    loop := .returned }

def stepLoop : Option PipelineRun :=
  match run.loop with
  | .top =>
    if !run.dispatcher.hasQueuedJobs graph then some { run with loop := .exhausting false }
    else if run.isAbortedOrCancelled then some { run with loop := .returned }
    else some { run with loop := .calling }
  | .calling => some (run.poll graph)
  | .dispatching index => run.dispatchNode graph index
  | .joining => if run.handles = ∅ then some { run with loop := .top } else none
  | .exhausting interactive =>
    if run.handles ≠ ∅ then none
    else if run.isAbortedOrCancelled then some { run with loop := .returned }
    else if interactive then some { run with loop := .top }
    else some run.spawnPersistent
  | .returned => none

def beginJob (index : Nat) : Option PipelineRun := do
  let node ← graph.nodes[index]?
  let action := Action.new node index
  if run.abortToken then return run.setJob index (.sending (action.finish .aborted))
  else if run.cancelToken then return run.setJob index (.sending (action.finish .skipped))
  else return { run.setJob index .running with started := index :: run.started }

def endRun (index : Nat) (env : ActionRunEnv) : Option PipelineRun := do
  let node ← graph.nodes[index]?
  let (action, ok) := runAction env (Action.new node index)
  let action := if ok then action else action.finish .failed
  return { run.setJob index (.ran action) with
    failed := if action.hasFailed then insert index run.failed else run.failed }

/-- The second look of `Job::dispatch` at the tokens. -/
def settle (action : Action) : Action :=
  if run.abortToken then action.finish .aborted
  else if run.cancelToken then action.finish .skipped
  else action

def step : PipelineRunEvent → Option PipelineRun
  | .loop => run.stepLoop graph
  | .join index =>
    if index ∈ run.handles ∧
        (run.jobs index = some .finished ∨ run.jobs index = some .killed) then
      some { run with
        handles := run.handles.erase index
        loop := if run.loop = .joining then .top else run.loop }
    else none
  | .begin index => if run.jobs index = some .queued then run.beginJob graph index else none
  | .ran index env =>
    if run.jobs index = some .running then run.endRun graph index env else none
  | .settle index =>
    match run.jobs index with
    | some (.ran action) => some (run.setJob index (.sending (run.settle action)))
    | _ => none
  | .signal index =>
    match run.jobs index with
    | some (.sending action) =>
      some { run.setJob index (.signalled action) with
        abortToken := run.abortToken || shouldAbortPipeline bail action }
    | _ => none
  | .removeRunning index =>
    match run.jobs index with
    | some (.signalled action) => do
      let dispatcher ← run.dispatcher.step graph (.removeRunning index)
      return { run.setJob index (.removed action) with dispatcher := dispatcher }
    | _ => none
  | .insertCompleted index =>
    match run.jobs index with
    | some (.removed action) => do
      let dispatcher ← run.dispatcher.step graph (.insertCompleted index)
      return { run.setJob index (.completed action) with dispatcher := dispatcher }
    | _ => none
  | .send index =>
    match run.jobs index with
    | some (.completed action) =>
      some { run.setJob index .finished with results := run.results ++ [action] }
    | _ => none
  | .receive =>
    match run.results with
    | action :: results =>
      some { run with
        results := results
        abortToken := run.abortToken || shouldAbortPipeline bail action }
    | [] => none
  | .cancel => some { run with cancelToken := true }
  | .shutdown =>
    if run.isAbortedOrCancelled then some { run with loop := .returned } else none
  | .kill index =>
    if run.isAbortedOrCancelled ∧ run.loop = .returned ∧ (run.jobs index).isSome then
      some (run.setJob index .killed)
    else none

end PipelineRun

inductive ActionPipelineStatus
  | aborted
  | completed
  | interrupted
  | pending
  | terminated
deriving DecidableEq

inductive ReceiverPhase
  | listening
  /-- Nothing can be sent anymore, what was sent can still be received. -/
  | closed
  | dropped
deriving DecidableEq

def LoopPhase.isWaiting : LoopPhase → Bool
  | .joining | .exhausting _ => true
  | _ => false

structure InternalRun where
  run : PipelineRun
  permits : Finset Nat := ∅
  receiver : ReceiverPhase := .listening
  actions : List Action := []
  error : Option String := none
  status : ActionPipelineStatus := .pending

namespace InternalRun

variable (graph : ActionGraph) (bail : Bool) (concurrency : Nat)

/-- Without any actions the function returns at once. -/
def new (topoIndices : List Nat) : InternalRun :=
  if graph.nodes.length = 0 then
    { run := { PipelineRun.new graph topoIndices with loop := .returned }, receiver := .dropped }
  else { run := PipelineRun.new graph topoIndices }

/-- `dispatch_job_with_permit` or, for a persistent action, `dispatch_job`. -/
def needsPermit (index : Nat) : Bool := !graph.nodes[index]?.any ActionNode.isPersistent

/-- What is done with a result, once the tokens are dealt with. -/
def collect (pipeline : InternalRun) (action : Action) : InternalRun :=
  let pipeline := { pipeline with
    actions := pipeline.actions ++ [action]
    error := pipeline.error <|> if action.shouldAbort then action.error else none }
  if pipeline.run.abortToken then { pipeline with status := .aborted, receiver := .closed }
  else if pipeline.run.cancelToken then
    { pipeline with status := .interrupted, receiver := .closed }
  else if pipeline.actions.length = graph.nodes.length then
    { pipeline with status := .completed, receiver := .dropped }
  else pipeline

/-- One turn of the loop that receives. A receiver that was closed has set the status, so no
signal is asked for one afterwards. -/
def receive (pipeline : InternalRun) : Option InternalRun :=
  match pipeline.receiver, pipeline.run.results with
  | .dropped, _ => none
  | .listening, [] => none
  | .closed, [] => some { pipeline with receiver := .dropped }
  | _, action :: _ => do
    let run ← pipeline.run.step graph bail .receive
    return collect graph { pipeline with run := run } action

def step (pipeline : InternalRun) : PipelineRunEvent → Option InternalRun
  | .join index =>
    if pipeline.run.loop.isWaiting then do
      let run ← pipeline.run.step graph bail (.join index)
      return { pipeline with run := run }
    else none
  | .begin index =>
    if needsPermit graph index ∧ concurrency ≤ pipeline.permits.card then none
    else do
      let run ← pipeline.run.step graph bail (.begin index)
      return { pipeline with
        run := run
        permits := if needsPermit graph index then insert index pipeline.permits
          else pipeline.permits }
  | .send index => do
    let run ← pipeline.run.step graph bail (.send index)
    return { pipeline with
      run := if pipeline.receiver = .listening then run
        else { run with results := pipeline.run.results }
      permits := pipeline.permits.erase index }
  | .receive => pipeline.receive graph bail
  | .kill index => do
    let run ← pipeline.run.step graph bail (.kill index)
    return { pipeline with run := run, permits := pipeline.permits.erase index }
  | event => do
    let run ← pipeline.run.step graph bail event
    return { pipeline with run := run }

end InternalRun

end Moon
