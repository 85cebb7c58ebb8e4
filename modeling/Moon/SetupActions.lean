import Moon.ActionGraphBuilder

/-!
# Actions around tasks

How the builder inserts the actions that a task needs before it runs.
-/

namespace Moon

namespace BuilderEnv

variable {A : Type}

variable (env : BuilderEnv A)

def getPluginConfig (id : Id) : Option ToolchainPluginConfig :=
  (env.toolchainsConfig.find? (fun entry => entry.1 == id)).map Prod.snd

def requiresProto : Bool := env.toolchainsConfig.any (fun entry => entry.2.version.isSome)

def getWorkspaceSpec (id : Id) : Option ToolchainSpec :=
  (env.getPluginConfig id).map (fun config => ⟨id, config.version⟩)

def getProjectSpec (id : Id) (project : Project) : Option ToolchainSpec :=
  match (env.projectToolchains project.id).find? (fun entry => entry.1 == id) with
  | some (_, config) =>
    if !config.isEnabled then none
    else match config.version with
      | some version => some ⟨id, some version⟩
      | none => env.getWorkspaceSpec id
  | none => env.getWorkspaceSpec id

def getSpec (id : Id) (project : Option Project) : Option ToolchainSpec :=
  match project with
  | some project => env.getProjectSpec id project
  | none => env.getWorkspaceSpec id

/-- `in_dependencies_workspace`, for the root of a project or of the workspace. -/
def inDependenciesWorkspace (workspace : DependenciesWorkspace) (root : WorkspaceRelativePath) :
    Except String (Option DependenciesWorkspaceRole) :=
  if root == workspace.root then
    .ok (some (if workspace.members.isSome then .workspaceRoot else .packageRoot))
  else
    match workspace.members with
    | some members => do
      return if ← env.matchesMembers members root then some .workspaceMember else none
    | none => .ok none

end BuilderEnv

namespace ActionGraphBuilder

variable {A : Type} (env : BuilderEnv A)

def syncWorkspace : BuildM A (Option Nat) := do
  if !env.options.syncWorkspace then
    return none
  else
    return some (← insertNodeIfMissing .syncWorkspace)

def syncDependencies (env : BuilderEnv A) (sync : Project → BuildM A (Option Nat))
    (index : Nat) (cycle : List Id) : List Id → BuildM A (List Nat)
  | [] => return []
  | depProjectId :: depProjectIds => do
    if cycle.contains depProjectId then
      syncDependencies env sync index cycle depProjectIds
    else
      let depProject ← orFail .workspace (env.workspace.getProject depProjectId)
      let depIndex ← sync depProject
      let edges ← syncDependencies env sync index cycle depProjectIds
      return depIndex.toList.filter (fun depIndex => index != depIndex) ++ edges

def internalSyncProject (env : BuilderEnv A) (reqs : RunRequirements) :
    (fuel : Nat) → (cycle : List Id) → Project → BuildM A (Option Nat)
  | 0, _, _ => throw .outOfFuel
  | fuel + 1, cycle, project => do
    if !env.options.syncProjects.isEnabled project.id || cycle.contains project.id then
      return none
    else if !(← isProjectAffected env project reqs) then
      return none
    else
      let syncWorkspaceIndex ← syncWorkspace env
      let builder ← get
      match builder.getIndexFromNode (.syncProject project.id) with
      | some index => return some index
      | none =>
        let index ← insertNode (.syncProject project.id)
        let edges ← syncDependencies env
          (internalSyncProject env reqs fuel (project.id :: cycle)) index (project.id :: cycle)
          (if env.options.syncProjectDependencies then
            env.workspace.projectDependencies project.id else [])
        linkRequirements index (syncWorkspaceIndex.toList ++ edges)
        return some index

def syncProject (fuel : Nat) (project : Project) (reqs : RunRequirements) :
    BuildM A (Option Nat) :=
  internalSyncProject env reqs fuel [] project

def setupProto : BuildM A (Option Nat) := do
  return some (← insertNodeIfMissing (.setupProto env.protoVersion))

def setupRequiredProto (spec : ToolchainSpec) : BuildM A (Option Nat) :=
  if spec.req.isSome || env.requiresProto then setupProto env else pure none

/-- The loop over the toolchains that a toolchain requires, in `internal_setup_toolchain` and
in `internal_setup_environment`. -/
def requireToolchains (env : BuilderEnv A) (setup : ToolchainSpec → BuildM A (Option Nat))
    (spec : ToolchainSpec) (project : Option Project) (cycle : List Id) :
    List Id → BuildM A (List (Option Nat))
  | [] => return []
  | requireId :: requireIds => do
    if requireId == spec.id || cycle.contains requireId then
      requireToolchains env setup spec project cycle requireIds
    else
      match env.getSpec requireId project with
      | some requireSpec =>
        let edge ← setup requireSpec
        let edges ← requireToolchains env setup spec project cycle requireIds
        return edge :: edges
      | none => throw (.missingToolchainRequirement spec.id requireId)

def internalSetupToolchain (env : BuilderEnv A) (project : Option Project) :
    (fuel : Nat) → (cycle : List Id) → ToolchainSpec → BuildM A (Option Nat)
  | 0, _, _ => throw .outOfFuel
  | fuel + 1, cycle, spec => do
    if !env.options.setupToolchains.isEnabled spec.id || spec.isSystem ||
        cycle.contains spec.id then
      return none
    else
      let toolchain ← orFail .plugin (env.loadToolchain spec.id)
      let output ← orFail .plugin (toolchain.defineRequirements (project.map (·.id)))
      let edges ← requireToolchains env
        (internalSetupToolchain env project fuel (spec.id :: cycle)) spec project
        (spec.id :: cycle) (if output.forSetupToolchain then output.requires else [])
      if !toolchain.supportsTier3 && edges.isEmpty then
        return none
      else
        let syncWorkspaceIndex ← syncWorkspace env
        let protoIndex ← setupRequiredProto env spec
        let index ← insertNodeIfMissing (.setupToolchain spec)
        linkOptionalRequirements index (edges ++ [syncWorkspaceIndex, protoIndex])
        return some index

def setupToolchain (fuel : Nat) (project : Option Project)
    (spec : ToolchainSpec) : BuildM A (Option Nat) :=
  internalSetupToolchain env project fuel [] spec

/-- Required toolchains are set up, but not their environments. -/
def setupEnvironment (fuel : Nat) (spec : ToolchainSpec)
    (root : WorkspaceRelativePath) (project : Option Project) : BuildM A (Option Nat) := do
  if !env.options.setupEnvironment.isEnabled spec.id || spec.isSystem then
    return none
  else
    let toolchain ← orFail .plugin (env.loadToolchain spec.id)
    let output ← orFail .plugin (toolchain.defineRequirements (project.map (·.id)))
    let edges ← requireToolchains env (setupToolchain env fuel project) spec project [spec.id]
      (if output.forSetupEnvironment then output.requires else [])
    if !toolchain.hasSetupEnvironment && edges.isEmpty then
      return none
    else
      let syncWorkspaceIndex ← syncWorkspace env
      let setupToolchainIndex ← setupToolchain env fuel project spec
      let node := .setupEnvironment ⟨project.map (·.id), root, spec.id⟩
      let builder ← get
      match builder.getIndexFromNode node with
      | some index => return some index
      | none =>
        let index ← insertNode node
        linkOptionalRequirements index (edges ++ [syncWorkspaceIndex, setupToolchainIndex])
        return some index

def installInRoot (fuel : Nat) (spec : ToolchainSpec)
    (project : Option Project) (toolchain : ToolchainPlugin) (workspace : DependenciesWorkspace)
    (role : DependenciesWorkspaceRole) (syncWorkspaceIndex setupToolchainIndex : Option Nat) :
    BuildM A (Option Nat) := do
  -- a root without a workspace belongs to the project
  let owner := if role == .packageRoot then project else none
  let setupEnvIndex ← setupEnvironment env fuel spec workspace.root owner
  if toolchain.hasInstallDependencies then
    let index ← insertNodeIfMissing (.installDependencies
      ⟨workspace.members, owner.map (·.id), workspace.root, spec.id⟩)
    linkFirstRequirement index [setupEnvIndex, setupToolchainIndex, syncWorkspaceIndex]
    return some index
  else
    match setupEnvIndex with
    | some setupEnvIndex =>
      linkFirstRequirement setupEnvIndex [setupToolchainIndex, syncWorkspaceIndex]
      return some setupEnvIndex
    | none => return setupToolchainIndex

def installDependencies (fuel : Nat) (spec : ToolchainSpec)
    (project : Option Project) : BuildM A (Option Nat) := do
  if spec.isSystem || !env.options.installDependencies.isEnabled spec.id ||
      (env.getPluginConfig spec.id).any (fun config => !config.installDependencies) then
    return none
  else
    let syncWorkspaceIndex ← syncWorkspace env
    let setupToolchainIndex ← setupToolchain env fuel project spec
    let toolchain ← orFail .plugin (env.loadToolchain spec.id)
    if !toolchain.supportsTier2 then
      return setupToolchainIndex
    else
      match ← orFail .plugin (toolchain.locateDependenciesRoot (project.map (·.id))) with
      | none => return setupToolchainIndex
      | some workspace =>
        match ← orFail .plugin (env.inDependenciesWorkspace workspace
            (env.rootOf (project.map (·.id)))) with
        | none => return setupToolchainIndex
        | some role =>
          installInRoot env fuel spec project toolchain workspace role syncWorkspaceIndex
            setupToolchainIndex

def installDependenciesByToolchains (env : BuilderEnv A) (fuel : Nat) (project : Project) :
    List Id → BuildM A (List (Option Nat))
  | [] => return []
  | toolchainId :: toolchainIds => do
    match env.getProjectSpec toolchainId project with
    | some spec =>
      let index ← installDependencies env fuel spec (some project)
      let indexes ← installDependenciesByToolchains env fuel project toolchainIds
      return index :: indexes
    | none => installDependenciesByToolchains env fuel project toolchainIds

end ActionGraphBuilder

end Moon
