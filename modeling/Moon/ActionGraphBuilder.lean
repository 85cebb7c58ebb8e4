import Moon.WorkspaceGraph

/-!
# The action graph builder

`ActionGraphBuilder` inserts a node for every action that a requested task needs, and links the
nodes to what they depend on.
-/

namespace Moon

open Moon.Lib

/-- The errors of the builder and of what it calls. `outOfFuel` is not in the source: it ends
a recursion of the model. -/
inductive ActionGraphError
  | invalidJobIndex (index total : Nat)
  | missingToolchainRequirement (id depId : Id)
  | wouldCycle (sourceAction targetAction : String)
  | workspace (error : WorkspaceError)
  | plugin (message : String)
  | tracker (message : String)
  | outOfFuel
deriving DecidableEq

def ActionGraphError.isWouldCycle : ActionGraphError → Bool
  | .wouldCycle _ _ => true
  | _ => false

inductive UpstreamScope
  | none
  | direct
  | deep
deriving DecidableEq

def UpstreamScope.isInScope (scope : UpstreamScope) (depth : UInt8) : Bool :=
  match scope with
  | .none => false
  | .direct => depth == 0
  | .deep => true

inductive DownstreamScope
  | none
  | direct
  | deep
deriving DecidableEq

def DownstreamScope.isInScope (scope : DownstreamScope) (depth : UInt8) : Bool :=
  match scope with
  | .none => false
  | .direct => depth == 0
  | .deep => true

structure RunRequirements where
  ci : Bool := false
  ciCheck : Bool := false
  dependencies : UpstreamScope := .deep
  dependents : DownstreamScope := .none
  includeRelations : Bool := false
  interactive : Bool := false
  job : Option Nat := none
  jobTotal : Option Nat := none
  skipAffected : Bool := false
deriving DecidableEq

inductive PipelineActionSwitch
  | default
  | enabled (value : Bool)
  | only (list : List Id)
deriving DecidableEq

def PipelineActionSwitch.isEnabled (switch : PipelineActionSwitch) (id : Id) : Bool :=
  match switch with
  | .default => true
  | .enabled value => value
  | .only list => list.contains id

structure ActionGraphBuilderOptions where
  installDependencies : PipelineActionSwitch := .enabled true
  setupEnvironment : PipelineActionSwitch := .enabled true
  setupToolchains : PipelineActionSwitch := .enabled true
  syncProjects : PipelineActionSwitch := .enabled true
  syncProjectDependencies : Bool := true
  syncWorkspace : Bool := true
deriving DecidableEq

structure ToolchainPluginConfig where
  version : Option String := none
  installDependencies : Bool := true
deriving DecidableEq

structure ProjectToolchainConfig where
  isEnabled : Bool := true
  version : Option String := none
deriving DecidableEq

structure DefineRequirementsOutput where
  requires : List Id := []
  forSetupEnvironment : Bool := false
  forSetupToolchain : Bool := false
deriving DecidableEq

structure DependenciesWorkspace where
  root : WorkspaceRelativePath
  members : Option (List String) := none
deriving DecidableEq

inductive DependenciesWorkspaceRole
  | workspaceRoot
  | workspaceMember
  | packageRoot
deriving DecidableEq

/-- A toolchain plugin. Its answers depend on the project whose configuration it is given. -/
structure ToolchainPlugin where
  supportsTier2 : Bool := false
  supportsTier3 : Bool := false
  hasInstallDependencies : Bool := false
  hasSetupEnvironment : Bool := false
  defineRequirements : Option Id → Except String DefineRequirementsOutput := fun _ => .ok {}
  locateDependenciesRoot : Option Id → Except String (Option DependenciesWorkspace) :=
    fun _ => .ok none

/-- What the builder asks of the affected tracker. Checking a task or a project gives the tracker
with the new mark, if it is affected. -/
structure AffectedTracker (A : Type) where
  isTaskMarked : A → Bool → Task → Bool
  affectTask : A → Task → Except String (Option A)
  isProjectMarked : A → Bool → Project → Bool
  affectProject : A → Project → Except String (Option A)
  trackTasks : A → Bool → List Task → Except String A

/-- The workspace, its toolchains and its plugins. -/
structure BuilderEnv (A : Type) where
  workspace : WorkspaceGraph
  options : ActionGraphBuilderOptions := {}
  tracker : AffectedTracker A
  allQuery : Option String := none
  toolchainsConfig : List (Id × ToolchainPluginConfig) := []
  projectToolchains : Id → List (Id × ProjectToolchainConfig) := fun _ => []
  loadToolchain : Id → Except String ToolchainPlugin := fun _ => .ok {}
  rootOf : Option Id → WorkspaceRelativePath := fun _ => ⟨[]⟩
  matchesMembers : List String → WorkspaceRelativePath → Except String Bool := fun _ _ => .ok false
  protoVersion : String := ""
  fxHash : RunTaskId → UInt64 := fun _ => 1

/-- `requirements` is not in the source: it keeps the edges that `link_requirements` has linked or
has found linked. -/
structure ActionGraphBuilder (A : Type) where
  graph : ActionGraph := .empty
  affected : Option A := none
  ignoredDependencies : Map Target (List Target) := ∅
  ignoredDependents : Finset Target := ∅
  passthroughTargets : List Target := []
  primaryTargets : List Target := []
  serialEdges : List (Nat × Nat) := []
  requirements : List (Nat × Nat) := []

abbrev BuildM (A : Type) := EStateM ActionGraphError (ActionGraphBuilder A)

namespace ActionGraphBuilder

variable {A : Type}

def orFail {ε α : Type} (wrap : ε → ActionGraphError) (result : Except ε α) : BuildM A α :=
  liftExcept (result.mapError wrap)

/-- The map finds a node under an equal hash only, and the hash takes the environment variables in
their order. -/
def getIndexFromNode (builder : ActionGraphBuilder A) (node : ActionNode) : Option Nat :=
  builder.graph.nodes.idxOf? node

def insertNode (node : ActionNode) : BuildM A Nat := do
  let builder ← get
  modify (fun builder => { builder with graph := builder.graph.addNode node })
  return builder.graph.nodes.length

def insertNodeIfMissing (node : ActionNode) : BuildM A Nat := do
  let builder ← get
  match builder.getIndexFromNode node with
  | some index => return index
  | none => insertNode node

def nodeLabel (builder : ActionGraphBuilder A) (index : Nat) : String :=
  match builder.graph.nodes[index]? with
  | some node => node.label
  | none => ""

def linkRequirement (index edge : Nat) : BuildM A Unit := do
  let builder ← get
  if builder.graph.edges.contains (index, edge) then
    modify (fun builder => { builder with
      requirements := builder.requirements ++ [(index, edge)] })
  else
    match builder.graph.addEdge index edge with
    | some graph =>
      modify (fun builder => { builder with
        graph := graph
        requirements := builder.requirements ++ [(index, edge)] })
    | none => throw (.wouldCycle (builder.nodeLabel index) (builder.nodeLabel edge))

def linkRequirements (index : Nat) : List Nat → BuildM A Unit
  | [] => return ()
  | edge :: edges => do
    linkRequirement index edge
    linkRequirements index edges

def linkOptionalRequirements (index : Nat) (edges : List (Option Nat)) : BuildM A Unit :=
  linkRequirements index (edges.filterMap id)

def linkFirstRequirement (index : Nat) (edges : List (Option Nat)) : BuildM A Unit :=
  linkRequirements index (edges.filterMap id).head?.toList

def tryLinkRequirements (edge : Nat) (builder : ActionGraphBuilder A) (index : Nat) :
    ActionGraphBuilder A :=
  if builder.graph.edges.contains (index, edge) then
    builder
  else
    match builder.graph.addEdge index edge with
    | some graph =>
      { builder with graph := graph, serialEdges := builder.serialEdges ++ [(index, edge)] }
    | none => builder

/-- The tasks that a node requires through edges other than those of a serial order. -/
def requiredTasks (builder : ActionGraphBuilder A) (index : Nat) : List Nat :=
  (builder.graph.edges.filter (fun edge => edge.1 == index && !builder.serialEdges.contains edge &&
    builder.graph.nodes[edge.2]?.any ActionNode.isRunTask)).map Prod.snd

/-- The walk of `link_serial_requirements`, in the order of the visits. Every edge puts at
most one node on the stack. -/
def serialSubtree (builder : ActionGraphBuilder A) :
    (fuel : Nat) → (stack : List Nat) → (ordered : List Nat) → List Nat
  | 0, _, ordered => ordered
  | _ + 1, [], ordered => ordered
  | fuel + 1, index :: stack, ordered =>
    if index ∈ ordered then
      serialSubtree builder fuel stack ordered
    else
      serialSubtree builder fuel (builder.requiredTasks index ++ stack) (ordered ++ [index])

def linkSerialRequirements (builder : ActionGraphBuilder A) (index previous : Nat) :
    ActionGraphBuilder A :=
  (builder.serialSubtree (builder.graph.edges.length + 1) [index] []).foldl
    (tryLinkRequirements previous) builder

/-- The common body of `is_project_affected` and `is_task_affected`. Without a tracker, or
where the check is skipped, everything is affected. -/
def checkAffected (reqs : RunRequirements) (isMarked : A → Bool)
    (affect : A → Except String (Option A)) : BuildM A Bool := do
  let builder ← get
  match builder.affected with
  | none => return true
  | some affected =>
    if reqs.skipAffected || isMarked affected then
      return true
    else
      match ← orFail .tracker (affect affected) with
      | some affected =>
        modify (fun builder => { builder with affected := some affected })
        return true
      | none => return false

def isProjectAffected (env : BuilderEnv A) (project : Project) (reqs : RunRequirements) :
    BuildM A Bool :=
  checkAffected reqs
    (fun affected => env.tracker.isProjectMarked affected reqs.includeRelations project)
    (fun affected => env.tracker.affectProject affected project)

def isTaskAffected (env : BuilderEnv A) (task : Task) (reqs : RunRequirements) : BuildM A Bool :=
  checkAffected reqs (fun affected => env.tracker.isTaskMarked affected reqs.includeRelations task)
    (fun affected => env.tracker.affectTask affected task)

end ActionGraphBuilder

/-- `expand_task_usage`, with what the plugins report in the order of the reports. -/
def expandTaskUsage (ids : List Id) (reports : List (Id × DefineRequirementsOutput)) : Finset Id :=
  reports.foldl (fun expanded report =>
    if report.1 ∈ expanded ∨ ∃ id ∈ report.2.requires, id ∈ expanded then
      insert report.1 (expanded ∪ report.2.requires.toFinset)
    else expanded) ids.toFinset

end Moon
