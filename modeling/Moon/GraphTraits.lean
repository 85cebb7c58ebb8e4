import Moon.FinalGraph

/-!
# Walks over a graph

`traverse_deep` of `GraphConnections`, and `partitioned_traverse` of the project graph.
-/

namespace Moon

open Moon.Lib

variable {K S : Type} [DecidableEq K]

inductive Direction
  | outgoing
  | incoming
deriving DecidableEq

/-- The latest edge comes first. -/
def neighborsDirected (edges : List (K × K × S)) (key : K) : Direction → List K
  | .outgoing => (edges.reverse.filter (·.1 = key)).map (·.2.1)
  | .incoming => (edges.reverse.filter (·.2.1 = key)).map (·.1)

/-- An edge joins two nodes, the way that a walk goes. -/
def Joined (edges : List (K × K × S)) (direction : Direction) (key next : K) : Prop :=
  match direction with
  | .outgoing => ∃ scope, (key, next, scope) ∈ edges
  | .incoming => ∃ scope, (next, key, scope) ∈ edges

@[simp] lemma mem_neighborsDirected {edges : List (K × K × S)} {direction : Direction}
    {key next : K} :
    next ∈ neighborsDirected edges key direction ↔ Joined edges direction key next := by
  cases direction <;> simp [neighborsDirected, Joined]

structure KeyGraph (K S : Type) where
  nodes : List K
  edges : List (K × K × S)
  ends_mem : ∀ edge ∈ edges, edge.1 ∈ nodes ∧ edge.2.1 ∈ nodes

omit [DecidableEq K] in
lemma KeyGraph.mem_nodes_of_joined {graph : KeyGraph K S} {direction : Direction} {key next : K}
    (h : Joined graph.edges direction key next) : key ∈ graph.nodes ∧ next ∈ graph.nodes := by
  cases direction <;> obtain ⟨scope, hed⟩ := h
  · exact graph.ends_mem _ hed
  · exact (graph.ends_mem _ hed).symm

section Deep

variable (graph : KeyGraph K S) (direction : Direction)

def depNodes (key : K) : List K :=
  graph.nodes.filter (· ∈ neighborsDirected graph.edges key direction)

def addKeys (deps keys : List K) : List K :=
  keys.foldl (fun deps key => if key ∈ deps then deps else deps ++ [key]) deps

lemma traverse_decreases {key : K} {queue visited : List K} (hnw : key ∉ visited) :
    unvisited graph.nodes (key :: visited) * (graph.nodes.length + 1) +
        ((depNodes graph direction key).reverse ++ queue).length <
      unvisited graph.nodes visited * (graph.nodes.length + 1) + (key :: queue).length := by
  simp only [List.length_append, List.length_reverse, List.length_cons]
  by_cases hk : key ∈ graph.nodes
  · have hl := Nat.mul_le_mul_right (graph.nodes.length + 1) (unvisited_cons_lt hk hnw)
    have hdp : (depNodes graph direction key).length ≤ graph.nodes.length :=
      List.length_filter_le _ _
    rw [Nat.succ_mul] at hl
    omega
  · have hn : depNodes graph direction key = [] := by
      simp only [depNodes, List.filter_eq_nil_iff, decide_eq_true_eq, mem_neighborsDirected]
      exact fun _ _ hj => hk (KeyGraph.mem_nodes_of_joined hj).1
    have hs : unvisited graph.nodes (key :: visited) ≤ unvisited graph.nodes visited :=
      unvisited_le_of_subset (List.subset_cons_self key visited)
    have hl := Nat.mul_le_mul_right (graph.nodes.length + 1) hs
    rw [hn, List.length_nil]
    omega

/-- The loop of `traverse_deep`, with the top of the stack first. A node without neighbors
adds nothing, where the source goes on at once. -/
def traverse (queue visited deps : List K) : List K :=
  match queue with
  | [] => deps
  | key :: queue =>
    if _hnew : key ∈ visited then traverse queue visited deps
    else
      traverse ((depNodes graph direction key).reverse ++ queue) (key :: visited)
        (addKeys deps (neighborsDirected graph.edges key direction))
termination_by unvisited graph.nodes visited * (graph.nodes.length + 1) + queue.length
decreasing_by
  · simp
  · exact traverse_decreases graph direction _hnew

def traverseDeep (key : K) : List K := traverse graph direction [key] [] []

end Deep

section Partitioned

structure Walk (K : Type) where
  queue : List K
  visited : List K
  results : List K

def Walk.meet (walk : Walk K) (next : K) : Walk K :=
  if next ∈ walk.visited then walk
  else ⟨walk.queue ++ [next], next :: walk.visited, walk.results ++ [next]⟩

/-- A node adds the neighbors that were not seen, each of them once. -/
lemma foldl_meet (nexts : List K) (walk : Walk K) :
    ∃ new : List K, new.Nodup ∧ (∀ key, key ∈ new ↔ key ∈ nexts ∧ key ∉ walk.visited) ∧
      nexts.foldl Walk.meet walk =
        ⟨walk.queue ++ new, new.reverse ++ walk.visited, walk.results ++ new⟩ := by
  induction nexts generalizing walk with
  | nil => exact ⟨[], by simp⟩
  | cons next nexts ih =>
    rw [List.foldl_cons]
    by_cases hs : next ∈ walk.visited
    · obtain ⟨new, hd, hm, heq⟩ := ih walk
      rw [Walk.meet, if_pos hs]
      exact ⟨new, hd, by grind, heq⟩
    · obtain ⟨new, hd, hm, heq⟩ :=
        ih ⟨walk.queue ++ [next], next :: walk.visited, walk.results ++ [next]⟩
      rw [Walk.meet, if_neg hs]
      exact ⟨next :: new, by grind, by grind, by simp [heq]⟩

variable (edges : List (K × K × S)) (direction : Direction)

def endpoints : List K := edges.map (·.1) ++ edges.map (·.2.1)

lemma walkFrom_decreases {key : K} {queue visited results : List K} :
    unvisited (endpoints edges) ((neighborsDirected edges key direction).foldl Walk.meet
        ⟨queue, visited, results⟩).visited +
      ((neighborsDirected edges key direction).foldl Walk.meet
        ⟨queue, visited, results⟩).queue.length <
    unvisited (endpoints edges) visited + (key :: queue).length := by
  obtain ⟨new, hd, hm, heq⟩ :=
    foldl_meet (neighborsDirected edges key direction) ⟨queue, visited, results⟩
  have hen : ∀ next ∈ new, next ∈ endpoints edges ∧ next ∉ visited := by
    intro next hn
    obtain ⟨hn, hnw⟩ := (hm next).mp hn
    refine ⟨?_, hnw⟩
    rw [mem_neighborsDirected] at hn
    cases direction <;> obtain ⟨scope, hed⟩ := hn
    · exact List.mem_append_right _ (List.mem_map_of_mem hed)
    · exact List.mem_append_left _ (List.mem_map_of_mem hed)
  have hls := unvisited_append hd hen
  simp only [heq, List.length_append, List.length_cons]
  omega

/-- The loop of `partitioned_traverse`. -/
def walkFrom (walk : Walk K) : List K :=
  match walk with
  | ⟨[], _, results⟩ => results
  | ⟨key :: queue, visited, results⟩ =>
    walkFrom ((neighborsDirected edges key direction).foldl Walk.meet ⟨queue, visited, results⟩)
termination_by unvisited (endpoints edges) walk.visited + walk.queue.length
decreasing_by exact walkFrom_decreases edges direction

end Partitioned

namespace PartitionGraphs

variable (graphs : PartitionGraphs K)

def partitionedGraph (production : Bool) : List (K × K × DependencyScope) :=
  if production then graphs.production else graphs.development

def partitionedTraverse (key : K) (production : Bool) (direction : Direction) : List K :=
  walkFrom (graphs.partitionedGraph production) direction ⟨[key], [key], []⟩

end PartitionGraphs

end Moon
