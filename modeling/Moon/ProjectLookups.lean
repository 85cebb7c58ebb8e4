import Moon.GraphTraits

/-!
# Lookups in a project graph

A focused graph shares its caches with the graph that it comes from.
-/

namespace Moon

open Moon.Lib

structure GraphProject where
  source : List String
  dependencies : List Id := []
deriving DecidableEq

/-- The ids of the projects stand for their indexes. -/
structure ProjectGraph where
  graph : KeyGraph Id DependencyScope
  projects : Id → GraphProject
  aliases : Id → Option Id := fun _ => none

structure GraphCaches where
  fsCache : Map (List String) Id := ∅
  projects : Map Id GraphProject := ∅

inductive LookupError
  | unconfiguredId (id : Id)
  | missingFromPath (dir : List String)
deriving DecidableEq

abbrev LookupResult := Except LookupError (Id × GraphProject)

/-- An edge between the same nodes gets the new weight. -/
def updateEdge (edges : List (Id × Id × DependencyScope)) (edge : Id × Id × DependencyScope) :
    List (Id × Id × DependencyScope) :=
  if edges.any (fun e => (e.1, e.2.1) = (edge.1, edge.2.1)) then
    edges.map (fun e => if (e.1, e.2.1) = (edge.1, edge.2.1) then edge else e)
  else edges ++ [edge]

lemma mem_of_mem_updateEdges {edges kept : List (Id × Id × DependencyScope)}
    {edge : Id × Id × DependencyScope} (h : edge ∈ edges.foldl updateEdge kept) :
    edge ∈ kept ∨ edge ∈ edges := by
  induction edges generalizing kept with
  | nil => exact Or.inl h
  | cons first edges ih =>
    rcases ih h with h | h
    · unfold updateEdge at h
      grind
    · exact Or.inr (List.mem_cons_of_mem _ h)

namespace ProjectGraph

variable (graph : ProjectGraph)

def resolveId (idOrAlias : Id) : Id :=
  if idOrAlias ∈ graph.graph.nodes then idOrAlias else (graph.aliases idOrAlias).getD idOrAlias

/-- `ProjectExpander`, where dependencies by id and by alias fall together. -/
def expand (project : GraphProject) : GraphProject :=
  { project with
    dependencies := (project.dependencies.map (fun dep => (graph.aliases dep).getD dep)).dedup }

def internalGet (caches : GraphCaches) (idOrAlias : Id) : LookupResult × GraphCaches :=
  let id := graph.resolveId idOrAlias
  match caches.projects.lookup id with
  | some project => (.ok (id, project), caches)
  | none =>
    if id ∈ graph.graph.nodes then
      let project := graph.expand (graph.projects id)
      (.ok (id, project), { caches with projects := caches.projects.insert id project })
    else (.error (.unconfiguredId id), caches)

/-- The loop of `internal_search`, by what remains of the path behind the closest source. -/
def searchFrom (search : List String) : List Id → Nat → Option Id → Option Id
  | [], _, possibleId => possibleId
  | id :: ids, remainingLength, possibleId =>
    let source := (graph.projects id).source
    let diffComps := search.length - source.length
    if source.isPrefixOf search then
      if diffComps = 0 then some id
      else if diffComps < remainingLength then searchFrom search ids diffComps (some id)
      else searchFrom search ids remainingLength possibleId
    else searchFrom search ids remainingLength possibleId

def internalSearch (caches : GraphCaches) (search : List String) :
    Except LookupError Id × GraphCaches :=
  match caches.fsCache.lookup search with
  | some id => (.ok id, caches)
  | none =>
    match graph.searchFrom search graph.graph.nodes 1000 none with
    | some id => (.ok id, { caches with fsCache := caches.fsCache.insert search id })
    | none => (.error (.missingFromPath search), caches)

/-- The components of a path behind the workspace root, which is looked up as a dot. -/
def searchKey (path : List String) : List String := if path = [] then ["."] else path

def getFromPath (caches : GraphCaches) (path : List String) : LookupResult × GraphCaches :=
  match graph.internalSearch caches (searchKey path) with
  | (.ok id, caches) => graph.internalGet caches id
  | (.error error, caches) => (.error error, caches)

def toFocusedNodes (focus : Id) (withDependents : Bool) : List Id :=
  graph.graph.nodes.filter (fun id => id = focus ∨ id ∈ traverseDeep graph.graph .outgoing focus ∨
    (withDependents ∧ id ∈ traverseDeep graph.graph .incoming focus))

/-- `focus_for`, once the project is known. -/
def focused (focus : Id) (withDependents : Bool) : ProjectGraph where
  graph.nodes := graph.toFocusedNodes focus withDependents
  graph.edges := (graph.graph.edges.filter (fun edge =>
    edge.1 ∈ graph.toFocusedNodes focus withDependents ∧
      edge.2.1 ∈ graph.toFocusedNodes focus withDependents)).foldl updateEdge []
  graph.ends_mem edge h := by simpa using (List.mem_filter.mp
    ((mem_of_mem_updateEdges h).resolve_left List.not_mem_nil)).2
  projects := graph.projects
  aliases name := (graph.aliases name).filter (· ∈ graph.toFocusedNodes focus withDependents)

end ProjectGraph

/-- A lookup in the full graph or in a focused one. -/
inductive GraphLookup
  | get (graph : ProjectGraph) (idOrAlias : Id)
  | getFromPath (graph : ProjectGraph) (path : List String)

namespace GraphLookup

def graph : GraphLookup → ProjectGraph
  | .get graph _ | .getFromPath graph _ => graph

def run (caches : GraphCaches) : GraphLookup → LookupResult × GraphCaches
  | .get graph idOrAlias => graph.internalGet caches idOrAlias
  | .getFromPath graph path => graph.getFromPath caches path

end GraphLookup

end Moon
