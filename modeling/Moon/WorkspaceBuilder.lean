import Moon.PooledTasks
import Moon.ProjectBuilder

/-!
# The workspace builders

Both builders extend projects from plugins, in different orders. `WorkspaceBuilderAsync` then adds
the built projects one by one, with edges to what they depend on.
-/

namespace Moon

open Moon.Lib

def ProjectGraphError.message : ProjectGraphError → String
  | .unconfiguredId id =>
    "No project has been configured with the identifier or alias " ++ id ++ "."
  | .wouldCycle sourceId targetId =>
    "Unable to create project graph, adding a relationship from " ++ sourceId ++ " to " ++
      targetId ++ " would introduce a cycle."

namespace WorkspaceBuilder

variable {P C : Type} (context : WorkspaceContext P C)

/-- Extensions come before toolchains. -/
def extendProjectsFromPlugins : Except ProjectGraphError (PluginData P) := do
  let plugins ← context.extensions.foldlM (applyExtendOutput context false) {}
  context.toolchains.foldlM (applyExtendOutput context true) plugins

variable (plugins : PluginData P)

def aliasOwner (name : String) : Option Id :=
  context.ids.find? (fun id => (plugins.data id).aliases.contains name)

def resolveId (name : String) : Id :=
  if name ∈ context.ids then name else (aliasOwner context plugins name).getD name

end WorkspaceBuilder

namespace WorkspaceBuilderAsync

variable {P C : Type} (context : WorkspaceContext P C)

/-- Toolchains come before extensions. -/
def extendBuildData : Except ProjectGraphError (PluginData P) := do
  let plugins ← context.toolchains.foldlM (applyExtendOutput context true) {}
  context.extensions.foldlM (applyExtendOutput context false) plugins

def resolveId (aliases : String → Option Id) (name : String) : Id := (aliases name).getD name

structure ProjectsState where
  nodes : List Id := []
  edges : List ProjectEdge := []
  projects : List BuiltProject := []

variable (aliases : String → Option Id)

variable (state : ProjectsState)

def getOrInsertNode (name : String) : ProjectsState :=
  if resolveId aliases name ∈ state.nodes then state
  else { state with nodes := state.nodes ++ [resolveId aliases name] }

def insertOrUpdateNode (built : BuiltProject) : ProjectsState :=
  { state with
    nodes := if built.project.id ∈ state.nodes then state.nodes
      else state.nodes ++ [built.project.id]
    projects := state.projects ++ [built] }

/-- For the edge, the source resolves the id of a dependency once more. This changes nothing, as no
id is in the map of aliases. -/
def linkDependency (id : Id) (state : ProjectsState) (dep : ProjectDependencyConfig) :
    Except String ProjectsState :=
  if dep.scope = .root then .ok state
  else
    let state := getOrInsertNode aliases state dep.id
    if wouldCycleInScope state.edges (resolveId aliases id) dep.id dep.scope then
      .error (ProjectGraphError.wouldCycle id dep.id).message
    else
      .ok { state with
        edges := state.edges ++ [⟨resolveId aliases id, dep.id, dep.scope⟩] }

def addProject (built : BuiltProject) : Except String ProjectsState := do
  let dependencies := built.project.dependencies.map (fun dep =>
    { dep with id := resolveId aliases dep.id })
  let state ← dependencies.foldlM (linkDependency aliases built.project.id)
    (getOrInsertNode aliases state built.project.id)
  return insertOrUpdateNode state
    { built with project := { built.project with dependencies := dependencies } }

end WorkspaceBuilderAsync

end Moon
