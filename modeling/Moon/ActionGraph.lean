import Moon.Lib.Digraph
import Moon.Task

/-! # The action graph -/

namespace Moon

open Moon.Lib

structure ToolchainSpec where
  id : Id
  req : Option String := none
deriving DecidableEq

def ToolchainSpec.isSystem (spec : ToolchainSpec) : Bool := spec.id == "system"

def ToolchainSpec.target (spec : ToolchainSpec) : String :=
  match spec.req with
  | some req => spec.id ++ ":" ++ String.ofList (req.toList.filter (fun char => char != ' '))
  | none => spec.id

structure InstallDependenciesNode where
  members : Option (List String)
  projectId : Option Id
  root : WorkspaceRelativePath
  toolchainId : Id
deriving DecidableEq

structure SetupEnvironmentNode where
  projectId : Option Id
  root : WorkspaceRelativePath
  toolchainId : Id
deriving DecidableEq

structure RunTaskNode where
  args : List String := []
  env : EnvMap := []
  interactive : Bool := false
  persistent : Bool := false
  priority : Nat := 2
  target : Target
  id : Option UInt64 := none
deriving DecidableEq

/-- What `calculate_id` feeds to the hasher. The arguments and the environment are not part of it.
-/
structure RunTaskId where
  target : Target
  persistent : Bool
  interactive : Bool
deriving DecidableEq

/-- `calculate_id`, for the 64 bit hash function of the source's hasher. -/
def RunTaskNode.calculateId (fxHash : RunTaskId → UInt64) (node : RunTaskNode) : RunTaskNode :=
  { node with id := some (fxHash ⟨node.target, node.persistent, node.interactive⟩) }

inductive ActionNode
  | none
  | installDependencies (inner : InstallDependenciesNode)
  | runTask (inner : RunTaskNode)
  | setupEnvironment (inner : SetupEnvironmentNode)
  | setupProto (version : String)
  | setupToolchain (toolchain : ToolchainSpec)
  | syncProject (projectId : Id)
  | syncWorkspace
deriving DecidableEq

namespace ActionNode

def getId : ActionNode → UInt64
  | .runTask inner => inner.id.getD 0
  | _ => 0

def getPriority : ActionNode → Nat
  | .runTask inner => inner.priority
  | _ => 0

def isInteractive : ActionNode → Bool
  | .runTask inner => inner.interactive
  | _ => false

def isPersistent : ActionNode → Bool
  | .runTask inner => inner.persistent
  | _ => false

def isStandard : ActionNode → Bool
  | .runTask inner => !inner.interactive && !inner.persistent
  | _ => true

/-- The label of an action with a root, which is left out at the workspace root. -/
def rootLabel (name toolchainId : String) (root : WorkspaceRelativePath) : String :=
  if root.asStr.isEmpty then name ++ "(" ++ toolchainId ++ ")"
  else name ++ "(" ++ toolchainId ++ ", " ++ root.asStr ++ ")"

def label : ActionNode → String
  | .installDependencies inner => rootLabel "InstallDependencies" inner.toolchainId inner.root
  | .runTask inner =>
    "Run" ++ (if inner.persistent then "Persistent"
      else if inner.interactive then "Interactive" else "") ++
      "Task(" ++ inner.target.asStr ++ ")"
  | .setupEnvironment inner => rootLabel "SetupEnvironment" inner.toolchainId inner.root
  | .setupProto version => "SetupProto(" ++ version ++ ")"
  | .setupToolchain toolchain => "SetupToolchain(" ++ toolchain.target ++ ")"
  | .syncProject projectId => "SyncProject(" ++ projectId ++ ")"
  | .syncWorkspace => "SyncWorkspace"
  | .none => "None"

def isRunTask : ActionNode → Bool
  | .runTask _ => true
  | _ => false

end ActionNode

/-- The graph of two nodes where the second depends on the first. -/
theorem acyclic_pair : Acyclic (fun source target : Nat => (source, target) ∈ [(1, 0)]) :=
  acyclic_of_rank id (by simp)

/-- `ActionGraph`: the nodes by index, and the edges from a node to what it depends on. The
graph type of the source keeps the edges acyclic. -/
structure ActionGraph where
  nodes : List ActionNode
  edges : List (Nat × Nat)
  edges_lt : ∀ edge ∈ edges, edge.1 < nodes.length ∧ edge.2 < nodes.length
  acyclic : Acyclic (fun source target => (source, target) ∈ edges)

namespace ActionGraph

variable (graph : ActionGraph)

/-- `neighbors_directed(index, Outgoing)`: the latest edge comes first. -/
def neighbors (index : Nat) : List Nat :=
  ((graph.edges.filter (fun edge => edge.1 == index)).map Prod.snd).reverse

def getPriority (index : Nat) : Nat :=
  match graph.nodes[index]? with
  | some node => node.getPriority
  | none => 0

/-- `group_priorities`, a sorted map from the priorities to their nodes in the given order.
The priorities are those of `TaskPriority::get_level`. -/
def groupPriorities (topoIndices : List Nat) : List (Nat × List Nat) :=
  ((topoIndices.map graph.getPriority).dedup.insertionSort (· ≤ ·)).map (fun priority =>
    (priority, topoIndices.filter (fun index => graph.getPriority index == priority)))

def empty : ActionGraph where
  nodes := []
  edges := []
  edges_lt := by simp
  acyclic := acyclic_of_rank id (by simp)

def addNode (node : ActionNode) : ActionGraph where
  nodes := graph.nodes ++ [node]
  edges := graph.edges
  edges_lt := by
    intro edge hedge
    have hlt := graph.edges_lt edge hedge
    simp only [List.length_append, List.length_singleton]
    omega
  acyclic := graph.acyclic

/-- `add_edge` of the graph library fails exactly when the edge closes a cycle. Its indices
are those of nodes of the graph. -/
def addEdge (source target : Nat) : Option ActionGraph :=
  if h : source < graph.nodes.length ∧ target < graph.nodes.length ∧
      reaches graph.edges target source = false then
    some {
      nodes := graph.nodes
      edges := graph.edges ++ [(source, target)]
      edges_lt := by
        intro edge hedge
        rcases List.mem_append.mp hedge with hold | hnew
        · exact graph.edges_lt edge hold
        · rw [List.mem_singleton.mp hnew]
          exact ⟨h.1, h.2.1⟩
      acyclic := by
        have hback : ¬ Relation.ReflTransGen (EdgeRel graph.edges) target source := by
          rw [← reaches_iff, h.2.2]
          exact Bool.false_ne_true
        have hrel := edgeRel_append_singleton graph.edges source target
        exact (congrArg Acyclic hrel).mpr (graph.acyclic.insert_edge hback) }
  else none

end ActionGraph

/-- All fields of a node are written, and a relative path is compared and written by its
components. -/
inductive HashWrite
  | text (value : String)
  | install (members : Option (List String)) (projectId : Option Id) (root : List Component)
      (toolchainId : Id)
  | environment (projectId : Option Id) (root : List Component) (toolchainId : Id)
  | toolchain (spec : ToolchainSpec)
  | project (projectId : Id)
deriving DecidableEq

/-- `eq` of the ordered map. -/
def EnvMap.sameEntries (env other : EnvMap) : Bool :=
  env.length == other.length && env.all (fun entry => other.lookup entry.1 == some entry.2)

def EnvMap.hashWrites (env : EnvMap) : List HashWrite :=
  env.flatMap (fun entry => .text entry.1 :: entry.2.toList.map .text)

namespace ActionNode

/-- The derived `eq`. -/
def isEqual : ActionNode → ActionNode → Bool
  | .installDependencies a, .installDependencies b =>
    a.members == b.members && a.projectId == b.projectId &&
      a.root.components == b.root.components && a.toolchainId == b.toolchainId
  | .setupEnvironment a, .setupEnvironment b =>
    a.projectId == b.projectId && a.root.components == b.root.components &&
      a.toolchainId == b.toolchainId
  | .runTask a, .runTask b =>
    { a with env := [] } == { b with env := [] } && a.env.sameEntries b.env
  | a, b => a == b

/-- What `hash` writes after the label. -/
def hashFields : ActionNode → List HashWrite
  | .installDependencies inner =>
    [.install inner.members inner.projectId inner.root.components inner.toolchainId]
  | .setupEnvironment inner =>
    [.environment inner.projectId inner.root.components inner.toolchainId]
  | .setupToolchain toolchain => [.toolchain toolchain]
  | .syncProject projectId => [.project projectId]
  | .runTask inner => inner.args.map .text ++ inner.env.hashWrites
  | _ => []

def hashWrites (node : ActionNode) : List HashWrite := .text node.label :: node.hashFields

/-- `get_index_from_node`, for the nodes in the order of their indices. -/
def lookupNode {H : Type} [DecidableEq H] (finish : List HashWrite → H)
    (nodes : List ActionNode) (node : ActionNode) : Option Nat :=
  nodes.findIdx? (fun other =>
    finish other.hashWrites == finish node.hashWrites && other.isEqual node)

end ActionNode

end Moon
