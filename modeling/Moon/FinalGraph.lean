import Moon.GraphLoader

/-!
# Finished graphs

A builder leaves out the nodes that were never loaded, numbers the rest again, and derives the
graph of each partition of the scopes.
-/

namespace Moon

open Moon.Lib

variable {α T K S : Type} [DecidableEq α] [DecidableEq K]

structure PartitionGraphs (α : Type) where
  production : List (α × α × DependencyScope) := []
  development : List (α × α × DependencyScope) := []
deriving DecidableEq

/-- `Dag::add_edge`, which does not add an edge that closes a cycle. -/
def addEdge (dag : List (α × α × S)) (edge : α × α × S) : Option (List (α × α × S)) :=
  if reaches (dag.map (fun other => (other.1, other.2.1))) edge.2.1 edge.1 then none
  else some (dag ++ [edge])

def routeEdge (labelIndex : α → Id) (graphs : PartitionGraphs α)
    (edge : α × α × DependencyScope) : Except ProjectGraphError (PartitionGraphs α) :=
  let added :=
    if edge.2.2.isProductionGroup then
      (addEdge graphs.production edge).map (fun dag => { graphs with production := dag })
    else (addEdge graphs.development edge).map (fun dag => { graphs with development := dag })
  match added with
  | some graphs => .ok graphs
  | none => .error (.wouldCycle (labelIndex edge.1) (labelIndex edge.2.1))

def setGraph (labelIndex : α → Id) (edges : List (α × α × DependencyScope)) :
    Except ProjectGraphError (PartitionGraphs α) :=
  edges.foldlM (routeEdge labelIndex) {}

inductive NodeState (T : Type)
  | loading
  | loaded (value : T)
deriving DecidableEq

/-- The nodes of a builder by their index, and the index of each key. -/
structure BuilderGraph (K T S : Type) where
  nodes : List (NodeState T) := []
  edges : List (Nat × Nat × S) := []
  keysToIndexes : Map K Nat := ∅

structure FinalGraph (K T S : Type) where
  weights : List Nat
  edges : List (Nat × Nat × S)
  indexes : Map Nat K := ∅
  nodes : Map K (Nat × T) := ∅

namespace BuilderGraph

variable (graph : BuilderGraph K T S)

def addNode (k : K) (node : NodeState T) : BuilderGraph K T S :=
  { graph with
    nodes := graph.nodes ++ [node]
    keysToIndexes := graph.keysToIndexes.insert k graph.nodes.length }

/-- A placeholder stands for a node that is linked before it is loaded. -/
def getOrInsertNode (k : K) : BuilderGraph K T S × Nat :=
  match graph.keysToIndexes.lookup k with
  | some index => (graph, index)
  | none => (graph.addNode k .loading, graph.nodes.length)

def insertOrUpdateNode (key : T → K) (value : T) : BuilderGraph K T S :=
  match graph.keysToIndexes.lookup (key value) with
  | some index =>
    if index < graph.nodes.length then
      { graph with nodes := graph.nodes.set index (.loaded value) }
    else graph.addNode (key value) (.loaded value)
  | none => graph.addNode (key value) (.loaded value)

def loadedAt (index : Nat) : Option T :=
  match graph.nodes[index]? with
  | some (.loaded value) => some value
  | _ => none

def keptIndexes : List Nat :=
  (List.range graph.nodes.length).filter (fun index => (graph.loadedAt index).isSome)

/-- `filter_map`, where the weight of a node is the index that it had. -/
def filterMap : FinalGraph K T S where
  weights := graph.keptIndexes
  edges := graph.edges.filterMap (fun (source, target, scope) => do
    return (← graph.keptIndexes.idxOf? source, ← graph.keptIndexes.idxOf? target, scope))

def keepNode (key : T → K) (final : FinalGraph K T S) (node : Nat × Nat) : FinalGraph K T S :=
  match graph.loadedAt node.1 with
  | some value =>
    { final with
      indexes := final.indexes.insert node.2 (key value)
      nodes := final.nodes.insert (key value) (node.2, value) }
  | none => final

/-- The weights are rewritten last, to the index that a node has now. -/
def finalize (key : T → K) : FinalGraph K T S :=
  let filtered : FinalGraph K T S := graph.filterMap
  let final := filtered.weights.zipIdx.foldl (graph.keepNode key) filtered
  { final with weights := List.range final.weights.length }

def finalizeProjects (graph : BuilderGraph Id T DependencyScope) (key : T → Id) :
    Except ProjectGraphError (FinalGraph Id T DependencyScope × PartitionGraphs Nat) := do
  let final := graph.finalize key
  let graphs ← setGraph (fun index => (final.indexes.lookup index).getD (toString index))
    final.edges
  return (final, graphs)

end BuilderGraph

end Moon
