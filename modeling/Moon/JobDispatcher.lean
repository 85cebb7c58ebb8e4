import Moon.ActionGraph
import Moon.Lib.Map
import Moon.Lib.Run

/-!
# The job dispatcher

`JobDispatcher::next` gives up control at every lock, so it is a machine that takes one
step between two of them, while jobs complete in the background.
-/

namespace Moon

open Moon.Lib

def searchDependencies (find : Nat → Finset Nat → Option Nat × Finset Nat) :
    List Nat → Finset Nat → Option Nat × Finset Nat
  | [], traversed => (none, traversed)
  | depIndex :: depIndices, traversed =>
    match find depIndex traversed with
    | (some index, traversed) => (some index, traversed)
    | (none, traversed) => searchDependencies find depIndices traversed

/-- `find_applicable_index`, with the traversed set it leaves behind. Every call marks its
index, so the recursion is at most one deeper than the number of nodes. -/
def findApplicableIndex (graph : ActionGraph) (visited completed : Finset Nat) (group : Nat) :
    (fuel : Nat) → Nat → Finset Nat → Option Nat × Finset Nat
  | 0, _, traversed => (none, traversed)
  | fuel + 1, index, traversed =>
    if index ∈ traversed ∨ index ∈ visited ∨ index ∈ completed then
      (none, insert index traversed)
    else if ∀ depIndex ∈ graph.neighbors index, depIndex ∈ completed then
      (some index, insert index traversed)
    else if group < 2 then
      searchDependencies (findApplicableIndex graph visited completed group fuel)
        (graph.neighbors index) (insert index traversed)
    else
      (none, insert index traversed)

/-- Where `next` stands, between two locks. -/
inductive NextState
  | idle
  /-- Looping over the groups, with the snapshot of the completed jobs. -/
  | scanning (completed traversed : Finset Nat) (todo : List (Nat × Nat))
  | checking (completed traversed : Finset Nat) (todo : List (Nat × Nat)) (index : Nat)
      (id : UInt64)
  | inserting (index : Nat) (id : UInt64)
deriving DecidableEq

/-- The dispatcher, the completions that are under way, and what the calls of `next` have returned,
the last one first. -/
structure JobDispatcher where
  groups : List (Nat × List Nat)
  visited : Finset Nat := ∅
  completedJobs : Finset Nat := ∅
  runningJobs : Map Nat UInt64 := ∅
  next : NextState := .idle
  completing : Finset Nat := ∅
  returned : List (Option Nat) := []

inductive DispatchEvent
  | poll
  /-- The first half of `mark_completed`. -/
  | removeRunning (index : Nat)
  /-- The second half of `mark_completed`. -/
  | insertCompleted (index : Nat)
deriving DecidableEq

namespace JobDispatcher

variable (graph : ActionGraph)

def new (topoIndices : List Nat) : JobDispatcher := { groups := graph.groupPriorities topoIndices }

variable (dispatcher : JobDispatcher)

def hasQueuedJobs : Bool := dispatcher.visited.card < graph.nodes.length

/-- The iterations of the two nested loops over groups and their indices. -/
def todo : List (Nat × Nat) :=
  dispatcher.groups.flatMap (fun group => group.2.map (fun index => (group.1, index)))

def dispatch (index : Nat) : JobDispatcher :=
  { dispatcher with
    visited := insert index dispatcher.visited
    next := .idle
    returned := some index :: dispatcher.returned }

/-- The end of `next`, where completed indices and then empty groups are removed. -/
def prune (completed : Finset Nat) : JobDispatcher :=
  { dispatcher with
    groups := (dispatcher.groups.map (fun group =>
      (group.1, group.2.filter (fun index => index ∉ completed)))).filter
        (fun group => !group.2.isEmpty)
    next := .idle
    returned := none :: dispatcher.returned }

def runningId (index : Nat) : Option UInt64 :=
  match graph.nodes[index]? with
  | some node => if 0 < node.getId ∧ node.isStandard then some node.getId else none
  | none => none

def scan (completed traversed : Finset Nat) (group index : Nat) (todo : List (Nat × Nat)) :
    JobDispatcher :=
  match findApplicableIndex graph dispatcher.visited completed group
      (graph.nodes.length + 1) index traversed with
  | (none, traversed) => { dispatcher with next := .scanning completed traversed todo }
  | (some index, traversed) =>
    match runningId graph index with
    | some id => { dispatcher with next := .checking completed traversed todo index id }
    | none => dispatcher.dispatch index

def isRunning (graph : ActionGraph) (id : UInt64) : Bool :=
  (List.range graph.nodes.length).any (fun index =>
    dispatcher.runningJobs.lookup index == some id)

def poll : JobDispatcher :=
  match dispatcher.next with
  | .idle =>
    { dispatcher with next := .scanning dispatcher.completedJobs ∅ dispatcher.todo }
  | .scanning completed _ [] => dispatcher.prune completed
  | .scanning completed traversed ((group, index) :: todo) =>
    dispatcher.scan graph completed traversed group index todo
  | .checking completed traversed todo index id =>
    if dispatcher.isRunning graph id then
      { dispatcher with next := .scanning completed traversed todo }
    else
      { dispatcher with next := .inserting index id }
  | .inserting index id =>
    { dispatcher.dispatch index with runningJobs := dispatcher.runningJobs.insert index id }

/-- A job is completed at some point after `next` has returned it. -/
def step : DispatchEvent → Option JobDispatcher
  | .poll => some (dispatcher.poll graph)
  | .removeRunning index =>
    if index ∈ dispatcher.visited then
      some { dispatcher with
        runningJobs := dispatcher.runningJobs.erase index
        completing := insert index dispatcher.completing }
    else none
  | .insertCompleted index =>
    if index ∈ dispatcher.completing then
      some { dispatcher with
        completedJobs := insert index dispatcher.completedJobs
        completing := dispatcher.completing.erase index }
    else none

end JobDispatcher

end Moon
