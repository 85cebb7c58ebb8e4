import Moon.GraphLoader
import Moon.TaskDepsBuilder

/-!
# Building projects

Plugins give aliases, dependencies and tasks to projects. A dependency may be named by an alias,
and the two workspace builders resolve those that plugins name at different times.
-/

namespace Moon

structure ProjectDependency where
  id : Id
  scope : DependencyScope
deriving DecidableEq

structure ExtendProjectOutput (P : Type) where
  aliasName : Option String := none
  dependencies : List ProjectDependency := []
  tasks : List (Id × P) := []
deriving DecidableEq

structure PluginOutput (P : Type) where
  pluginId : Id
  extendedProjects : List (Id × ExtendProjectOutput P)
deriving DecidableEq

structure ProjectInput where
  project : String
  filter : List String := []
  group : Option Id := none
deriving DecidableEq

namespace ProjectInput

def isAllDeps (input : ProjectInput) : Bool := input.project == "^"

def getDepsScope (input : ProjectInput) : Option DependencyScope :=
  if input.project == "^dev" || input.project == "^development" then some .development
  else if input.project == "^prod" || input.project == "^production" then some .production
  else if input.project == "^peer" then some .peer
  else if input.project == "^build" then some .build
  else none

end ProjectInput

structure BuiltTask where
  task : Task
  inputs : List ProjectInput := []
deriving DecidableEq

structure ProjectSettings (C : Type) where
  dependsOn : List ProjectDependencyConfig := []
  tags : List Id := []
  tasks : Id → Option C := fun _ => none

/-- Everything that both builders start from. `P` and `C` are the configurations of a task, as
plugins give it and when it is finalized. -/
structure WorkspaceContext (P C : Type) where
  ids : List Id
  rootProjectId : Option Id := none
  /-- Fails if the source of a project is missing, or if something cannot be inherited. -/
  settings : Id → Except String (ProjectSettings C)
  isValidId : String → Bool := fun _ => true
  inheritAliases : Id → Bool := fun _ => true
  extensions : List (PluginOutput P) := []
  toolchains : List (PluginOutput P) := []
  finalizeConfig : P → Except String C
  /-- What comes of each task of a project, before its inputs are resolved. -/
  buildTasks : Id → (Id → Option C) → List (Except String BuiltTask)
  hashOrder : List ProjectDependencyConfig → List ProjectDependencyConfig := fun deps => deps
  hashOrder_perm : ∀ deps, (hashOrder deps).Perm deps
  target_eq : ∀ id tasks built, .ok built ∈ buildTasks id tasks →
    ∃ taskId, built.task.target = Target.new id taskId
  eq_of_target_eq : ∀ id tasks built other, .ok built ∈ buildTasks id tasks →
    .ok other ∈ buildTasks id tasks → built.task.target = other.task.target → built = other

structure ProjectBuildData (P : Type) where
  aliases : List String := []
  extensions : List (ExtendProjectOutput P) := []

structure PluginData (P : Type) where
  aliases : String → Option Id := fun _ => none
  data : Id → ProjectBuildData P := fun _ => {}

section Plugins

variable {P C : Type} (context : WorkspaceContext P C)

/-- The first project that claims an alias gets it. -/
def trackAlias (plugins : PluginData P) (id : Id) (aliasName : String) : PluginData P :=
  if !context.isValidId aliasName then plugins
  else if aliasName ≠ id ∧ aliasName ∈ context.ids then plugins
  else if (plugins.aliases aliasName).isSome then plugins
  else
    { aliases :=
        if aliasName ≠ id then Function.update plugins.aliases aliasName (some id)
        else plugins.aliases
      data := Function.update plugins.data id
        { plugins.data id with aliases := (plugins.data id).aliases.insert aliasName } }

def applyExtendProject (inheritAliases : Bool) (plugins : PluginData P)
    (entry : Id × ExtendProjectOutput P) : Except ProjectGraphError (PluginData P) :=
  if entry.1 ∉ context.ids then .error (.unconfiguredId entry.1)
  else
    let plugins :=
      match inheritAliases, entry.2.aliasName with
      | true, some aliasName => trackAlias context plugins entry.1 aliasName
      | _, _ => plugins
    .ok { plugins with
      data := Function.update plugins.data entry.1
        { plugins.data entry.1 with
          extensions := (plugins.data entry.1).extensions ++ [entry.2] } }

def applyExtendOutput (isToolchain : Bool) (plugins : PluginData P) (output : PluginOutput P) :
    Except ProjectGraphError (PluginData P) :=
  output.extendedProjects.foldlM
    (applyExtendProject context (!isToolchain || context.inheritAliases output.pluginId)) plugins

end Plugins

structure BuiltProject where
  project : Project
  tags : List Id := []
  tasks : List BuiltTask := []
deriving DecidableEq

section

variable (deps : List ProjectDependencyConfig)

def ProjectInput.resolve (task : Target)
    (input : ProjectInput) : Except String (List ProjectInput) :=
  if input.isAllDeps then .ok (deps.map (fun dep => { input with project := dep.id }))
  else
    match input.getDepsScope with
    | some scope =>
      .ok ((deps.filter (·.scope == scope)).map (fun dep => { input with project := dep.id }))
    | none =>
      if deps.any (·.id == input.project) then .ok [input]
      else .error ("Invalid project input " ++ input.project ++ " for task " ++ task.asStr ++
        ". Only project dependencies of the parent project can be referenced as an input.")

def resolveTaskInputs (built : BuiltTask) :
    Except String BuiltTask := do
  let inputs ← built.inputs.mapM (ProjectInput.resolve deps built.task.target)
  return { built with inputs := inputs.flatten }

def insertDependency (dep : ProjectDependencyConfig) :
    List ProjectDependencyConfig :=
  deps.filter (fun other => other.id != dep.id) ++ [dep]

end

/-- `extend_with_task`, which keeps a task that is there. -/
def extendWithTask {C : Type} (tasks : Id → Option C) (entry : Id × C) : Id → Option C :=
  Function.update tasks entry.1 ((tasks entry.1).or (some entry.2))

/-- `resolve_project_dependencies`: the projects that tasks depend on are dependencies, too. -/
def resolveProjectDependencies (rootProjectId : Option Id) (tasks : List BuiltTask)
    (project : Project) : Project :=
  let deps := (tasks.flatMap (·.task.deps)).foldl (fun deps taskDep =>
    deps ++ (createProjectDepFromTaskDep taskDep project.id rootProjectId (fun depProjectId =>
      deps.any (fun dep => dep.id == depProjectId) ||
        project.dependencies.any (fun dep => dep.id == depProjectId) ||
        project.aliases.contains depProjectId)).toList) []
  { project with dependencies := project.dependencies ++ deps }

section Build

variable {P C : Type} (context : WorkspaceContext P C)

def buildDependencies (dependsOn : List ProjectDependencyConfig) : List ProjectDependencyConfig :=
  context.hashOrder (dependsOn.foldl insertDependency [])

/-- The configured dependencies, and those from plugins as the builder names them. -/
def allDependsOn (name : Id → Id) (settings : ProjectSettings C) (data : ProjectBuildData P) :
    List ProjectDependencyConfig :=
  settings.dependsOn ++ (data.extensions.flatMap (·.dependencies)).map (fun dep =>
    { id := name dep.id, scope := dep.scope, source := .implicit })

def allTasks (settings : ProjectSettings C) (data : ProjectBuildData P) :
    Except String (Id → Option C) := do
  let tasks ← (data.extensions.flatMap (·.tasks)).mapM (fun entry => do
    return (entry.1, ← context.finalizeConfig entry.2))
  return tasks.foldl extendWithTask settings.tasks

/-- `build_project`, for a builder that gives the dependencies from plugins a name. -/
def buildProject (name : Id → Id) (plugins : PluginData P) (id : Id) :
    Except String BuiltProject := do
  let settings ← context.settings id
  let taskConfigs ← allTasks context settings (plugins.data id)
  let dependencies := buildDependencies context (allDependsOn name settings (plugins.data id))
  let tasks ← (context.buildTasks id taskConfigs).mapM (fun result => do
    resolveTaskInputs dependencies (← result))
  return {
    project := resolveProjectDependencies context.rootProjectId tasks
      { id := id, aliases := (plugins.data id).aliases, dependencies := dependencies }
    tags := settings.tags
    tasks := tasks }

end Build

end Moon
