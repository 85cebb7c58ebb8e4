import Moon.ActionResult
import Moon.RunState

/-!
# The cached workspace graph

`new_with_cache` of both builders.
-/

namespace Moon

structure WorkspaceInputs where
  projects : List (Id × String) := []
  configPaths : List String := []
  manifestFileNames : List String := []
  files : String → Option String := fun _ => none
  env : String → Option String := fun _ => none
  extensions : List (Id × String) := []
  toolchains : List (Id × String) := []
  inDocker : Bool := false
  isVcsEnabled : Bool := true

structure WorkspaceGraphFingerprint where
  projects : List (Id × String)
  asyncGraphBuilding : Bool
  env : List (String × String)
  extensions : List (Id × String)
  inDocker : Bool
  inputs : String → Option String
  toolchains : List (Id × String)
  version : String

def joinSource (source fileName : String) : String :=
  if source = "" then fileName else source ++ "/" ++ fileName

def toolchainPaths (inputs : WorkspaceInputs) : List String :=
  inputs.manifestFileNames.flatMap (fun fileName =>
    fileName :: inputs.projects.map (fun project => joinSource project.2 fileName))

/-- Missing files are omitted. -/
def hashInputPaths (inputs : WorkspaceInputs) (paths : Finset String) : String → Option String :=
  fun path => if path ∈ paths then inputs.files path else none

def gatherEnv (inputs : WorkspaceInputs) : List (String × String) :=
  ["MOON_OUTPUT_STYLE", "MOON_RETRY_COUNT"].map (fun key => (key, (inputs.env key).getD ""))

def graphFingerprint (asyncGraphBuilding : Bool) (inputs : WorkspaceInputs)
    (pluginInputPaths : Finset String) : WorkspaceGraphFingerprint where
  projects := inputs.projects
  asyncGraphBuilding := asyncGraphBuilding
  env := gatherEnv inputs
  extensions := inputs.extensions
  inDocker := inputs.inDocker
  inputs := hashInputPaths inputs
    (inputs.configPaths.toFinset ∪ (toolchainPaths inputs).toFinset ∪ pluginInputPaths)
  toolchains := inputs.toolchains
  version := (inputs.env "MOON_VERSION").getD ""

structure WorkspaceGraphCacheState where
  lastHash : String := ""
  pluginInputPaths : Finset String := ∅
deriving DecidableEq

structure CachedBuilder (G : Type) where
  sha256 : WorkspaceGraphFingerprint → String
  /-- The graph, and the input files that the plugins have named on the way. -/
  build : (asyncGraphBuilding : Bool) → WorkspaceInputs → Except String (G × Finset String)
  cachedIds : G → Finset Id

structure CacheRequest where
  asyncGraphBuilding : Bool := true
  inputs : WorkspaceInputs
  mode : CacheMode := .readWrite

/-- A graph that is not written yet. -/
structure PendingBuild (G : Type) where
  request : CacheRequest
  graph : G
  state : WorkspaceGraphCacheState
  saved : Bool := false

structure GraphCacheMachine (G : Type) where
  stateFile : Option WorkspaceGraphCacheState := none
  /-- The builders serialize into different shapes. -/
  graphFile : Option (Bool × G) := none
  building : Option (PendingBuild G) := none
  /-- The graphs that were loaded from the cache, the last one first. -/
  loaded : List (CacheRequest × G) := []

/-- A command asks for the graph, then writes what it has built. -/
inductive GraphCacheEvent
  | request (request : CacheRequest)
  | saveState
  | writeGraph
  /-- The process stops, or one of its writes fails. -/
  | stop

inductive CacheAnswer (G : Type)
  | loaded (graph : G)
  | built (graph : G) (state : WorkspaceGraphCacheState)
  | uncached (graph : G)

namespace CachedBuilder

variable {G : Type} (builder : CachedBuilder G)

def generateCacheDigest (asyncGraphBuilding : Bool) (inputs : WorkspaceInputs)
    (pluginInputPaths : Finset String) : Except String String :=
  let hash := builder.sha256 (graphFingerprint asyncGraphBuilding inputs pluginInputPaths)
  if isContentHash hash then .ok hash else .error (HashError.invalidContentHash hash).message

def loadState (mode : CacheMode) (file : Option WorkspaceGraphCacheState) :
    WorkspaceGraphCacheState :=
  if mode.isReadable then file.getD {} else {}

/-- Reads the cached graph, if the digest is that of the state and the projects match. -/
def readGraph (request : CacheRequest) (hash lastHash : String) (file : Option (Bool × G)) :
    Except String (Option G) :=
  match file with
  | none => .ok none
  | some (asyncGraphBuilding, graph) =>
    if hash = lastHash then
      if asyncGraphBuilding = request.asyncGraphBuilding then
        if builder.cachedIds graph = (request.inputs.projects.map (·.1)).toFinset then
          .ok (some graph)
        else .ok none
      else .error "failed to parse JSON"
    else .ok none

/-- A different set of input files than that of the state calls for another digest. -/
def buildGraph (request : CacheRequest) (state : WorkspaceGraphCacheState) (hash : String) :
    Except String (G × WorkspaceGraphCacheState) := do
  let (graph, paths) ← builder.build request.asyncGraphBuilding request.inputs
  if paths = state.pluginInputPaths then return (graph, { state with lastHash := hash })
  else
    let hash ← builder.generateCacheDigest request.asyncGraphBuilding request.inputs paths
    return (graph, { lastHash := hash, pluginInputPaths := paths })

/-- `new_with_cache`, up to the first of the two files. -/
def answer (machine : GraphCacheMachine G) (request : CacheRequest) :
    Except String (CacheAnswer G) := do
  if request.inputs.isVcsEnabled then
    let state := loadState request.mode machine.stateFile
    let hash ← builder.generateCacheDigest request.asyncGraphBuilding request.inputs
      state.pluginInputPaths
    match ← builder.readGraph request hash state.lastHash machine.graphFile with
    | some graph => return .loaded graph
    | none =>
      let (graph, state) ← builder.buildGraph request state hash
      return .built graph state
  else
    let (graph, _) ← builder.build request.asyncGraphBuilding request.inputs
    return .uncached graph

/-- The graph is written in every mode. -/
def step (machine : GraphCacheMachine G) : GraphCacheEvent → Option (GraphCacheMachine G)
  | .request request =>
    if machine.building.isSome then none
    else
      match builder.answer machine request with
      | .ok (.loaded graph) => some { machine with loaded := (request, graph) :: machine.loaded }
      | .ok (.built graph state) =>
        some { machine with
          building := some { request := request, graph := graph, state := state } }
      | .ok (.uncached _) | .error _ => some machine
  | .saveState =>
    match machine.building with
    | some pending =>
      if pending.saved then none
      else
        some { machine with
          stateFile :=
            if pending.request.mode.isWritable then some pending.state else machine.stateFile
          building := some { pending with saved := true } }
    | none => none
  | .writeGraph =>
    match machine.building with
    | some pending =>
      if pending.saved then
        some { machine with
          graphFile := some (pending.request.asyncGraphBuilding, pending.graph)
          building := none }
      else none
    | none => none
  | .stop => some { machine with building := none }

end CachedBuilder

end Moon
