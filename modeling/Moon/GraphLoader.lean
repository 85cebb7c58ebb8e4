import Moon.WorkspaceGraph

/-!
# Loading projects and tasks into graphs

`internal_load_project` and `internal_load_task` are one recursion. A node is added before its
dependencies are loaded, and the set that is there to find cycles is cleared whenever a node is
done.
-/

namespace Moon

open Moon.Lib

section Loader

variable {K D S E : Type} [DecidableEq K]

structure LoaderSpec (K D S E : Type) where
  configured : K → Bool
  unconfigured : K → E
  /-- The dependencies of a node, once it is built. -/
  dependencies : K → List D
  resolve : D → K
  /-- Whether a dependency is being loaded, going by how it is named. -/
  isNamed : D → Finset K → Bool
  /-- What is done about a dependency that is being loaded. -/
  back : List K → K → D → S → S
  link : K → D → S → Except E S

/-- The nodes added, those complete, and those on the way. -/
structure Loading (K S : Type) where
  nodes : List K := []
  loaded : List K := []
  cycle : Finset K := ∅
  links : S

def loadDependencies (spec : LoaderSpec K D S E)
    (load : K → Loading K S → Except E (Option K × Loading K S)) (id : K) :
    List D → Loading K S → Except E (Loading K S)
  | [], loading => .ok loading
  | dep :: deps, loading =>
    if spec.isNamed dep loading.cycle then
      loadDependencies spec load id deps
        { loading with links := spec.back loading.nodes id dep loading.links }
    else do
      let (found, loading) ← load (spec.resolve dep) loading
      match found with
      | none => loadDependencies spec load id deps loading
      | some _ =>
        let links ← spec.link id dep loading.links
        loadDependencies spec load id deps { loading with links := links }

/-- Every call that gets to the dependencies adds a node, so the recursion is at most one
deeper than the number of nodes. -/
def loadNode (spec : LoaderSpec K D S E) :
    (fuel : Nat) → K → Loading K S → Except E (Option K × Loading K S)
  | 0, _, loading => .ok (none, loading)
  | fuel + 1, id, loading =>
    if id ∈ loading.cycle then .ok (none, loading)
    else if !spec.configured id then .error (spec.unconfigured id)
    else if id ∈ loading.nodes then .ok (some id, loading)
    else do
      let loading ← loadDependencies spec (loadNode spec fuel) id (spec.dependencies id)
        { loading with nodes := loading.nodes ++ [id], cycle := insert id loading.cycle }
      return (some id, { loading with loaded := loading.loaded ++ [id], cycle := ∅ })

end Loader

/-- The partition of a scope: `true` for production and peer dependencies. -/
def DependencyScope.isProductionGroup : DependencyScope → Bool
  | .production | .peer => true
  | .build | .development | .root => false

inductive ProjectGraphError
  | unconfiguredId (id : Id)
  | wouldCycle (sourceId targetId : Id)
deriving DecidableEq

structure ProjectEdge where
  source : Id
  target : Id
  scope : DependencyScope
deriving DecidableEq

structure ProjectLinks where
  edges : List ProjectEdge := []
  deferred : List ProjectEdge := []
deriving DecidableEq

/-- Looks for a path from the target to the source, over the edges of the partition. -/
def wouldCycleInScope (edges : List ProjectEdge) (source target : Id) (scope : DependencyScope) :
    Bool :=
  reaches ((edges.filter (fun edge =>
    edge.scope.isProductionGroup == scope.isProductionGroup)).map
      (fun edge => (edge.source, edge.target))) target source

/-- The projects in the order in which they are loaded, their aliases, and the dependencies that
each has when it is built. -/
structure ProjectConfigs where
  ids : List Id
  aliases : String → Option Id := fun _ => none
  dependencies : Id → List ProjectDependencyConfig

namespace ProjectConfigs

variable (configs : ProjectConfigs)

def resolveId (idOrAlias : String) : Id :=
  if idOrAlias ∈ configs.ids then idOrAlias else (configs.aliases idOrAlias).getD idOrAlias

/-- Dependencies are compared with the cycle set as they are named, by an id or an alias. Root
dependencies are loaded, but never linked. -/
def spec : LoaderSpec Id ProjectDependencyConfig ProjectLinks ProjectGraphError where
  configured id := id ∈ configs.ids
  unconfigured := .unconfiguredId
  dependencies := configs.dependencies
  resolve dep := configs.resolveId dep.id
  isNamed dep cycle := dep.id ∈ cycle
  back nodes id dep links :=
    if dep.scope ≠ .root ∧ configs.resolveId dep.id ∈ nodes then
      { links with deferred := links.deferred ++ [⟨id, configs.resolveId dep.id, dep.scope⟩] }
    else links
  link id dep links :=
    if dep.scope = .root then .ok links
    else if wouldCycleInScope links.edges id (configs.resolveId dep.id) dep.scope then
      .error (.wouldCycle id (configs.resolveId dep.id))
    else
      .ok { links with edges := links.edges ++ [⟨id, configs.resolveId dep.id, dep.scope⟩] }

/-- A deferred edge that would cycle within its partition is dropped. -/
def connectDeferredProjectEdges (links : ProjectLinks) : ProjectLinks :=
  { edges := links.deferred.foldl (fun edges edge =>
      if wouldCycleInScope edges edge.source edge.target edge.scope then edges
      else edges ++ [edge]) links.edges
    deferred := [] }

def loadProject (loading : Loading Id ProjectLinks) (idOrAlias : String) :
    Except ProjectGraphError (Loading Id ProjectLinks) := do
  let (_, loading) ← loadNode configs.spec (configs.ids.length + 1)
    (configs.resolveId idOrAlias) { loading with cycle := ∅ }
  return { loading with links := connectDeferredProjectEdges loading.links }

def loadProjects : Except ProjectGraphError (Loading Id ProjectLinks) :=
  configs.ids.foldlM configs.loadProject { links := {} }

end ProjectConfigs

inductive TaskDependencyType
  | optional
  | required
deriving DecidableEq

inductive TaskGraphError
  | unknownTask (target : Target)
  | wouldCycle (sourceTarget targetTarget : Target)
deriving DecidableEq

structure TaskEdge where
  source : Target
  target : Target
  type : TaskDependencyType
deriving DecidableEq

/-- The tasks of the loaded projects, in the order in which they are loaded, and their resolved
dependencies. -/
structure TaskConfigs where
  targets : List Target
  dependencies : Target → List TaskDependencyConfig

namespace TaskConfigs

def dependencyType (dep : TaskDependencyConfig) : TaskDependencyType :=
  if dep.optional == some true then .optional else .required

/-- Adding an edge to a DAG fails if its target reaches its source. -/
def spec (configs : TaskConfigs) :
    LoaderSpec Target TaskDependencyConfig (List TaskEdge) TaskGraphError where
  configured target := target ∈ configs.targets
  unconfigured := .unknownTask
  dependencies := configs.dependencies
  resolve dep := dep.target
  isNamed dep cycle := dep.target ∈ cycle
  back _ _ _ edges := edges
  link target dep edges :=
    if reaches (edges.map (fun edge => (edge.source, edge.target))) dep.target target then
      .error (.wouldCycle target dep.target)
    else .ok (edges ++ [⟨target, dep.target, dependencyType dep⟩])

def loadTask (configs : TaskConfigs) (loading : Loading Target (List TaskEdge))
    (target : Target) : Except TaskGraphError (Loading Target (List TaskEdge)) := do
  let (_, loading) ← loadNode configs.spec (configs.targets.length + 1) target
    { loading with cycle := ∅ }
  return loading

def loadTasks (configs : TaskConfigs) : Except TaskGraphError (Loading Target (List TaskEdge)) :=
  configs.targets.foldlM configs.loadTask { links := [] }

end TaskConfigs

end Moon
