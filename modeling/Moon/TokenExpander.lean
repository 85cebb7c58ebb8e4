import Moon.Lib.Finishes
import Moon.Lib.Sigil
import Moon.Task

/-!
# Expanding tokens

`TokenExpander` replaces the token variables and functions in the values of a task. `TOKEN_VAR` and
`TOKEN_FUNC` match what stands behind a `$` or an `@`.
-/

namespace Moon

open Lib

abbrev Text := List Char

inductive TokenVariable
  | arch
  | language
  | osFamily
  | os
  | projectAliases
  | projectAlias
  | projectChannel
  | projectId
  | projectLayer
  | projectName
  | projectTitle
  | projectOwner
  | projectRoot
  | projectSource
  | projectStack
  | project
  | target
  | taskId
  | taskToolchains
  | taskToolchain
  | taskType
  | task
  | timestamp
  | datetime
  | date
  | time
  | vcsBranch
  | vcsRepository
  | vcsRevision
  | workingDir
  | workspaceRoot
deriving DecidableEq

namespace TokenVariable

def all : List TokenVariable :=
  [arch, language, osFamily, os, projectAliases, projectAlias, projectChannel, projectId,
    projectLayer, projectName, projectTitle, projectOwner, projectRoot, projectSource,
    projectStack, project, target, taskId, taskToolchains, taskToolchain, taskType, task,
    timestamp, datetime, date, time, vcsBranch, vcsRepository, vcsRevision, workingDir,
    workspaceRoot]

theorem mem_all (var : TokenVariable) : var ∈ all := by
  cases var <;> decide

instance : Fintype TokenVariable := Fintype.ofList all mem_all

def name : TokenVariable → String
  | arch => "arch"
  | language => "language"
  | osFamily => "osFamily"
  | os => "os"
  | projectAliases => "projectAliases"
  | projectAlias => "projectAlias"
  | projectChannel => "projectChannel"
  | projectId => "projectId"
  | projectLayer => "projectLayer"
  | projectName => "projectName"
  | projectTitle => "projectTitle"
  | projectOwner => "projectOwner"
  | projectRoot => "projectRoot"
  | projectSource => "projectSource"
  | projectStack => "projectStack"
  | project => "project"
  | target => "target"
  | taskId => "taskId"
  | taskToolchains => "taskToolchains"
  | taskToolchain => "taskToolchain"
  | taskType => "taskType"
  | task => "task"
  | timestamp => "timestamp"
  | datetime => "datetime"
  | date => "date"
  | time => "time"
  | vcsBranch => "vcsBranch"
  | vcsRepository => "vcsRepository"
  | vcsRevision => "vcsRevision"
  | workingDir => "workingDir"
  | workspaceRoot => "workspaceRoot"

end TokenVariable

/-- `TOKEN_VAR`, behind the `$`. -/
def tokenVar (text : Text) : Option (TokenVariable × Text) :=
  (TokenVariable.all.find? (fun var => var.name.toList.isPrefixOf text)).map
    (fun var => (var, text.drop var.name.toList.length))

structure TokenCall where
  func : Text
  arg : Text
deriving DecidableEq

def TokenCall.behind (call : TokenCall) : Text := call.func ++ '(' :: (call.arg ++ [')'])

def TokenCall.token (call : TokenCall) : Text := '@' :: call.behind

def isFuncChar (c : Char) : Bool := c.isLower

def isArgChar (c : Char) : Bool := c.isAlphanum || c == '_' || c == '-'

/-- `TOKEN_FUNC`, behind the `@`. -/
def tokenFunc (text : Text) : Option (TokenCall × Text) :=
  let func := text.takeWhile isFuncChar
  match text.dropWhile isFuncChar with
  | '(' :: inner =>
    let arg := inner.takeWhile isArgChar
    match inner.dropWhile isArgChar with
    | ')' :: after => if func.isEmpty || arg.isEmpty then none else some (⟨func, arg⟩, after)
    | _ => none
  | _ => none

/-! ### What is read -/

/-- A reading of the clock: `%F`, `%T` and the seconds. -/
structure ClockReading where
  date : Text
  time : Text
  timestamp : Text
  /-- Formatted dates and times have nothing but digits and their separators. -/
  digits : ∀ c ∈ date ++ time ++ timestamp, c.isDigit ∨ c = '-' ∨ c = ':'

structure ProjectMetadata where
  channel : Option Text := none
  description : Option Text := none
  maintainers : List Text := []
  metadata : List (Text × Text) := []
  owner : Option Text := none
  title : Option Text := none

inductive TokenExpanderError
  | invalidTokenIndex (target token index : Text)
  | invalidTokenIndexReference (target token : Text)
  | invalidTokenScope (target token scope : Text)
  | missingInIndex (index : Nat) (target token : Text)
  | missingOutIndex (index : Nat) (target token : Text)
  | unknownToken (token : Text)
deriving DecidableEq

inductive ExpandError
  | token (error : TokenExpanderError)
  | unknownFileGroup (groupId projectId : Text)
  | missingGlobs (groupId : Text)
  /-- A path that is not valid text, or that cannot be walked. -/
  | path
  | unknownProject (id : Text)
  /-- A function token that is none, where the source unwraps. -/
  | panicked
deriving DecidableEq

/-- A file group, with what walking it gives. The flag is `loose_check`. -/
structure FileGroup where
  id : Text
  env : List Text := []
  files : List Text := []
  globs : List Text := []
  walkRoot : Except ExpandError Text := .error .path
  walkDirs : Bool → Except ExpandError (List Text) := fun _ => .ok []
  walkFiles : Bool → Except ExpandError (List Text) := fun _ => .ok []

inductive FileGroupInputFormat
  | static
  | dirs
  | envs
  | files
  | globs
  | root
deriving DecidableEq

inductive Input
  | envVar (value : Text)
  | envVarGlob (value : Text)
  | file (path : Text) (params : TaskFileInput)
  | fileGroup (group : Text) (format : FileGroupInputFormat)
  | glob (pattern : Text) (params : TaskGlobInput)
  | project (project : Text) (group : Option Text) (filter : List Text)
  | tokenFunc (value : Text)
  | tokenVar (value : Text)

structure TokenProject where
  aliases : List Text := []
  fileGroups : List FileGroup := []
  id : Text
  language : Text
  layer : Text
  metadata : Option ProjectMetadata := none
  root : Except ExpandError Text
  source : Text
  stack : Text

structure UnexpandedTask extends Task where
  id : Id
  inputs : List Input := []
  inferInputs : Bool := true
  runFromWorkspaceRoot : Bool := false

structure ExpanderContext where
  arch : Text
  os : Text
  osFamily : Text
  project : TokenProject
  projects : List TokenProject := []
  vcsBranch : Text
  vcsRepository : Text
  vcsRevision : Text
  workingDir : Except ExpandError Text
  workspaceRoot : Except ExpandError Text
  /-- What the clock shows when it is read for the n-th time. -/
  clock : Nat → ClockReading
  /-- `EnvSubstitutor` with the variables of the process and the given ones. -/
  substitute : EnvMap → Text → Text
  /-- `EnvScanner`: the text, and the variables that were found in it. -/
  scan : Text → Text × List Text
  envMatching : Text → List Text
  ciPrefixes : List Text := []
  /-- `expand_to_workspace_relative`, from the source of a project. -/
  toWorkspaceRelative : Text → Text → Text
  joinSource : Text → Text → Text
  /-- `strip_prefix` with the source of the project. -/
  stripSource : Text → Option Text
  /-- `diff_paths` from the root of the project. -/
  fromProjectRoot : Text → Except ExpandError Text

inductive TokenScope
  | command
  | script
  | args
  | env
  | inputs
  | outputs
deriving DecidableEq

def TokenScope.label : TokenScope → String
  | command => "commands"
  | script => "scripts"
  | args => "args"
  | env => "env"
  | inputs => "inputs"
  | outputs => "outputs"

/-- Of two entries of a map for one path the later one counts. -/
structure ExpandedResult where
  env : List Text := []
  files : List Text := []
  filesForInput : List (Text × TaskFileInput) := []
  filesForOutput : List (Text × TaskFileOutput) := []
  globs : List Text := []
  globsForInput : List (Text × TaskGlobInput) := []
  globsForOutput : List Text := []
  token : Option Text := none
  value : Option Text := none

structure ExpanderState where
  readings : Nat := 0
  inputEnv : List Text := []
  inputFiles : List (Text × TaskFileInput) := []
  inputGlobs : List (Text × TaskGlobInput) := []

abbrev ExpandM := LoopM ExpanderState ExpandError

/-! ### Patterns -/

/-- Outside of scripts a function must be the only value. -/
def hasTokenFunction (scope : TokenScope) (value : Text) : Bool :=
  match firstToken '@' tokenFunc value with
  | some (before, _, after) => (before.isEmpty && after.isEmpty) || scope == .script
  | none => false

def hasTokenVariable (value : Text) : Bool := (firstToken '$' tokenVar value).isSome

namespace ExpanderContext

variable (context : ExpanderContext) (task : UnexpandedTask)

/-! ### Variables -/

def getMetadata (op : ProjectMetadata → Option Text) : Text :=
  match context.project.metadata with
  | some metadata => (op metadata).getD []
  | none => []

def variableValue (now : ClockReading) : TokenVariable → Except ExpandError Text
  | .arch => .ok context.arch
  | .os => .ok context.os
  | .osFamily => .ok context.osFamily
  | .workingDir => context.workingDir
  | .workspaceRoot => context.workspaceRoot
  | .language => .ok context.project.language
  | .project | .projectId => .ok context.project.id
  | .projectAlias => .ok (context.project.aliases.head?.getD [])
  | .projectAliases => .ok ([','].intercalate context.project.aliases)
  | .projectChannel => .ok (context.getMetadata (·.channel))
  | .projectLayer => .ok context.project.layer
  | .projectName | .projectTitle => .ok (context.getMetadata (·.title))
  | .projectOwner => .ok (context.getMetadata (·.owner))
  | .projectRoot => context.project.root
  | .projectSource => .ok context.project.source
  | .projectStack => .ok context.project.stack
  | .target => .ok task.target.asStr.toList
  | .task | .taskId => .ok task.id.toList
  | .taskToolchain => .ok ((task.toolchains.map String.toList).head?.getD "unknown".toList)
  | .taskToolchains => .ok ([','].intercalate (task.toolchains.map String.toList))
  | .taskType =>
    .ok (match task.typeOf with
      | .build => "build".toList
      | .run => "run".toList
      | .test => "test".toList)
  | .date => .ok now.date
  | .datetime => .ok (now.date ++ '_' :: now.time)
  | .time => .ok now.time
  | .timestamp => .ok now.timestamp
  | .vcsBranch => .ok context.vcsBranch
  | .vcsRepository => .ok context.vcsRepository
  | .vcsRevision => .ok context.vcsRevision

def readClock : ExpandM ClockReading := fun state =>
  pure (context.clock state.readings, { state with readings := state.readings + 1 })

def replaceVariable (value : Text) : ExpandM Text := do
  match firstToken '$' tokenVar value with
  | none => return value
  | some (before, var, after) =>
    let now ← context.readClock
    let replacedValue ← LoopM.ofExcept (context.variableValue task now var)
    return before ++ replacedValue ++ after

def replaceVariables : Nat → Text → ExpandM Text
  | 0, _ => LoopM.endless
  | fuel + 1, value =>
    if hasTokenVariable value then do
      replaceVariables fuel (← context.replaceVariable task value)
    else
      return value

def replaceVariablesAndSubstitute (fuel : Nat) (env : EnvMap) (value : Text) : ExpandM Text := do
  return context.substitute (task.env.extend env) (← context.replaceVariables task fuel value)

def isBlacklisted (key : Text) : Bool :=
  (["HOME", "USER", "PWD", "CI_", "GIT_", "BUILD_", "PR_", "PULL_", "COMMIT_HASH", "COMMIT_REF",
      "COMMIT_SHA", "HEAD", "BASE", "BRANCH", "_SHA"].map String.toList ++
    context.ciPrefixes).any (fun item =>
      key == item || item.isPrefixOf key || item.isSuffixOf key)

def inferInputsFromSet (set : List Text) : ExpandM Unit := fun state =>
  pure ((), { state with
    inputEnv := state.inputEnv ++ set.filter (fun key => !context.isBlacklisted key) })

def replaceVariablesAndScan (fuel : Nat) (value : Text) : ExpandM Text := do
  let (result, found) := context.scan (← context.replaceVariables task fuel value)
  if task.inferInputs && !found.isEmpty then
    context.inferInputsFromSet found
  return result

/-! ### Paths -/

def createPathForTask (fuel : Nat) (path : Text) : ExpandM Text :=
  context.replaceVariablesAndSubstitute task fuel task.env path

def resolvePathForTask (path : Text) : Except ExpandError Text :=
  let (path, negated) := match path with
    | '!' :: inner => (inner, ['!'])
    | _ => (path, [])
  if task.runFromWorkspaceRoot then
    .ok (negated ++ path)
  else
    match context.stripSource path with
    | some projPath => .ok (negated ++ projPath)
    | none => (context.fromProjectRoot path).map (negated ++ ·)

/-- The files, the globs and the value of a result, as they are put in for its token. -/
def resolveItems (result : ExpandedResult) : ExpandM (List Text) := do
  let files ← result.files.mapM (fun file => LoopM.ofExcept (context.resolvePathForTask task file))
  let globs ← result.globs.mapM (fun glob => LoopM.ofExcept (context.resolvePathForTask task glob))
  return files ++ globs ++ result.value.toList

def inferInputsFromResult (result : ExpandedResult) : ExpandM Unit := fun state =>
  pure ((), if task.inferInputs then
      { state with
        inputFiles := state.inputFiles ++ result.filesForInput ++ result.files.map (·, {})
        inputGlobs := state.inputGlobs ++ result.globsForInput ++ result.globs.map (·, {}) }
    else state)

end ExpanderContext

/-! ### Functions -/

def FileGroup.getGlobs (group : FileGroup) : Except ExpandError (List Text) :=
  if group.globs.isEmpty then .error (.missingGlobs group.id) else .ok group.globs

def TokenProject.getFileGroup (project : TokenProject) (groupId : Text) :
    Except ExpandError FileGroup :=
  match project.fileGroups.find? (fun group => group.id == groupId) with
  | some group => .ok group
  | none => .error (.unknownFileGroup groupId project.id)

/-- The formats of `update_result_for_file_group`. -/
inductive GroupFormat
  | root
  | dirs
  | envs
  | files
  | globs
  | group
deriving DecidableEq

def FileGroupInputFormat.toGroupFormat : FileGroupInputFormat → GroupFormat
  | static => .group
  | dirs => .dirs
  | envs => .envs
  | files => .files
  | globs => .globs
  | root => .root

def updateResultForFileGroup (scope : TokenScope) (group : FileGroup) (format : GroupFormat)
    (result : ExpandedResult) : Except ExpandError ExpandedResult := do
  let looseCheck := scope == .outputs
  match format with
  | .root => return { result with files := result.files ++ [← group.walkRoot] }
  | .dirs => return { result with files := result.files ++ (← group.walkDirs looseCheck) }
  | .envs =>
    if scope == .inputs then
      return { result with env := result.env ++ group.env }
    else
      return result
  | .files => return { result with files := result.files ++ (← group.walkFiles looseCheck) }
  | .globs => return { result with globs := result.globs ++ (← group.getGlobs) }
  | .group => return { result with
      files := result.files ++ group.files
      globs := result.globs ++ group.globs
      env := if scope == .inputs then result.env ++ group.env else result.env }

/-- `parse::<usize>`: digits, and not too many of them. -/
def parseUsize (value : Text) : Option Nat :=
  if value.all Char.isDigit then
    let index := value.foldl (fun acc c => acc * 10 + (c.toNat - '0'.toNat)) 0
    if index < 2 ^ 64 then some index else none
  else none

namespace ExpanderContext

variable (context : ExpanderContext) (task : UnexpandedTask) (scope : TokenScope)

def checkScope (token : Text) (allowed : List TokenScope) : ExpandM Unit :=
  if allowed.contains scope then
    return ()
  else
    throw (.token (.invalidTokenScope task.target.asStr.toList token scope.label.toList))

def parseIndex (token value : Text) : ExpandM Nat :=
  match parseUsize value with
  | some index => return index
  | none => throw (.token (.invalidTokenIndex task.target.asStr.toList token value))

def metaValue (arg : Text) : Option Text :=
  context.project.metadata.bind (fun metadata =>
    if arg = "channel".toList then metadata.channel
    else if arg = "description".toList then metadata.description
    else if arg = "maintainers".toList then
      if metadata.maintainers.isEmpty then none
      else some ([','].intercalate metadata.maintainers)
    else if arg = "name".toList ∨ arg = "title".toList then metadata.title
    else if arg = "owner".toList then metadata.owner
    else (metadata.metadata.find? (·.1 == arg)).map (·.2))

def groupFunctions : List (Text × GroupFormat) :=
  [("root".toList, .root), ("dirs".toList, .dirs), ("files".toList, .files),
    ("globs".toList, .globs), ("group".toList, .group)]

def fileGroupResult (groupId : Text) (format : GroupFormat) (result : ExpandedResult) :
    ExpandM ExpandedResult := do
  let group ← LoopM.ofExcept (context.project.getFileGroup groupId)
  LoopM.ofExcept (updateResultForFileGroup scope group format result)

/-- `@in` and `@out`: a file or a glob that is referred to by its index. -/
def referToFile (fuel : Nat) (token path : Text) : ExpandM ExpandedResult := do
  let path ← context.createPathForTask task fuel
    (context.toWorkspaceRelative context.project.source path)
  return { token := some token, files := [path] }

def referToGlob (fuel : Nat) (token pattern : Text) : ExpandM ExpandedResult := do
  let glob ← context.createPathForTask task fuel
    (context.toWorkspaceRelative context.project.source pattern)
  return { token := some token, globs := [glob] }

section

variable (replaceFunction : Text → ExpandM ExpandedResult)

/-- A function that is referred to is replaced in turn. -/
def referToFunction (token func : Text) :
    ExpandM ExpandedResult := do
  let innerResult ← replaceFunction func
  return { token := some token, files := innerResult.files, globs := innerResult.globs }

def replaceIn (fuel : Nat) (call : TokenCall) :
    ExpandM ExpandedResult := do
  let target := task.target.asStr.toList
  let index ← parseIndex task call.token call.arg
  match task.inputs[index]? with
  | none => throw (.token (.missingInIndex index target call.token))
  | some (.file path _) => context.referToFile task fuel call.token path
  | some (.fileGroup group format) =>
    context.fileGroupResult scope group format.toGroupFormat { token := some call.token }
  | some (.glob pattern _) => context.referToGlob task fuel call.token pattern
  | some (.tokenFunc func) => referToFunction replaceFunction call.token func
  | some _ => throw (.token (.invalidTokenIndexReference target call.token))

def replaceOut (fuel : Nat) (call : TokenCall) :
    ExpandM ExpandedResult := do
  let target := task.target.asStr.toList
  let index ← parseIndex task call.token call.arg
  match task.outputs[index]? with
  | none => throw (.token (.missingOutIndex index target call.token))
  | some (.file path _) => context.referToFile task fuel call.token path.toList
  | some (.glob pattern _) => context.referToGlob task fuel call.token pattern.toList
  | some (.tokenFunc func) => referToFunction replaceFunction call.token func.toList
  | some (.tokenVar _) => throw (.token (.invalidTokenIndexReference target call.token))

def replaceCall (fuel : Nat) (call : TokenCall) :
    ExpandM ExpandedResult :=
  match groupFunctions.find? (·.1 == call.func) with
  | some (_, format) => do
    checkScope task scope call.token [.script, .args, .env, .inputs, .outputs]
    context.fileGroupResult scope call.arg format { token := some call.token }
  | none =>
    if call.func = "in".toList then do
      checkScope task scope call.token [.script, .args]
      context.replaceIn task scope replaceFunction fuel call
    else if call.func = "out".toList then do
      checkScope task scope call.token [.script, .args]
      context.replaceOut task replaceFunction fuel call
    else if call.func = "envs".toList then do
      checkScope task scope call.token [.inputs]
      context.fileGroupResult scope call.arg .envs { token := some call.token }
    else if call.func = "meta".toList then do
      checkScope task scope call.token [.command, .script, .args, .env]
      return { token := some call.token, value := context.metaValue call.arg }
    else
      throw (.token (.unknownToken call.token))

end

def replaceFunction : Nat → Text → ExpandM ExpandedResult
  | 0, _ => LoopM.endless
  | fuel + 1, value =>
    match firstToken '@' tokenFunc value with
    | none => throw .panicked
    | some (_, call, _) => context.replaceCall task scope (replaceFunction fuel) fuel call

/-! ### The values of a task -/

def expandCommand (fuel : Nat) : ExpandM Text := do
  let command := task.command.getValue.toList
  if hasTokenFunction .command command then
    let result ← context.replaceFunction task .command fuel command
    match result.token, result.value with
    | some token, some value =>
      context.replaceVariablesAndScan task fuel (replaceAll token value command)
    | _, _ => context.replaceVariablesAndScan task fuel command
  else
    context.replaceVariablesAndScan task fuel command

def replaceFunctions : Nat → Text → ExpandM Text
  | 0, _ => LoopM.endless
  | fuel + 1, script =>
    if hasTokenFunction .script script then do
      let result ← context.replaceFunction task .script fuel script
      inferInputsFromResult task result
      match result.token with
      | some token =>
        let items ← context.resolveItems task result
        replaceFunctions fuel (replaceAll token ([' '].intercalate items) script)
      | none => replaceFunctions fuel script
    else
      return script

def expandScript (fuel : Nat) : ExpandM Text := do
  match task.script with
  | none => throw .panicked
  | some script =>
    context.replaceVariablesAndScan task fuel (← context.replaceFunctions task fuel script.toList)

def expandArg (fuel : Nat) (arg : Text) : ExpandM (List Text) := do
  if hasTokenFunction .args arg then
    let result ← context.replaceFunction task .args fuel arg
    inferInputsFromResult task result
    context.resolveItems task result
  else
    return [← context.replaceVariablesAndScan task fuel arg]

def expandArgs (fuel : Nat) (baseArgs : Option (List Text) := none) : ExpandM (List Text) := do
  let baseArgs := baseArgs.getD (task.args.map (fun arg => arg.getValue.toList))
  return (← baseArgs.mapM (context.expandArg task fuel)).flatten

def expandEnvVar (fuel : Nat) (env : EnvMap) (entry : String × Option String) : ExpandM EnvMap := do
  match entry.2 with
  | none => return env.insert entry.1 none
  | some value =>
    if hasTokenFunction .env value.toList then
      let result ← context.replaceFunction task .env fuel value.toList
      inferInputsFromResult task result
      let items ← context.resolveItems task result
      return env.insert entry.1 (some (String.ofList ([','].intercalate items)))
    else
      let value ← context.replaceVariablesAndSubstitute task fuel env value.toList
      return env.insert entry.1 (some (String.ofList value))

/-- The variables of the task itself are taken out of it. -/
def expandEnv (fuel : Nat) (baseEnv : Option EnvMap := none) : ExpandM EnvMap :=
  match baseEnv with
  | some baseEnv => baseEnv.foldlM (context.expandEnvVar task fuel) []
  | none => task.env.foldlM (context.expandEnvVar { task with env := [] } fuel) []

def getUnexpanded (id : Text) : Except ExpandError TokenProject :=
  match (context.project :: context.projects).find? (fun project => project.id == id) with
  | some project => .ok project
  | none => .error (.unknownProject id)

def expandInput (fuel : Nat) (result : ExpandedResult) (input : Input) :
    ExpandM ExpandedResult := do
  let create := context.createPathForTask task fuel
  let source := context.project.source
  match input with
  | .envVar var => return { result with env := result.env ++ [var] }
  | .envVarGlob varGlob => return { result with env := result.env ++ context.envMatching varGlob }
  | .tokenFunc func =>
    let innerResult ← context.replaceFunction task .inputs fuel func
    return { result with
      env := result.env ++ innerResult.env
      files := result.files ++ innerResult.files
      globs := result.globs ++ innerResult.globs
      value := innerResult.value }
  | .tokenVar var =>
    let value ← context.replaceVariable task var
    return { result with files := result.files ++ [context.joinSource source value] }
  | .file path params =>
    let path ← create (context.toWorkspaceRelative source path)
    return { result with filesForInput := result.filesForInput ++ [(path, params)] }
  | .fileGroup group format =>
    context.fileGroupResult .inputs group format.toGroupFormat result
  | .glob pattern params =>
    let glob ← create (context.toWorkspaceRelative source pattern)
    return { result with globsForInput := result.globsForInput ++ [(glob, params)] }
  | .project id group filter =>
    let project ← LoopM.ofExcept (context.getUnexpanded id)
    match group with
    | some groupId =>
      let group ← LoopM.ofExcept (project.getFileGroup groupId)
      LoopM.ofExcept (updateResultForFileGroup .inputs group .group result)
    | none =>
      let globs ← (if filter.isEmpty then [context.joinSource project.source "**/*".toList]
        else filter.map (context.toWorkspaceRelative project.source)).mapM create
      return { result with globsForInput := result.globsForInput ++ globs.map (·, {}) }

def expandInputs (fuel : Nat) : ExpandM ExpandedResult :=
  task.inputs.foldlM (context.expandInput task fuel) {}

def expandOutput (fuel : Nat) (result : ExpandedResult) (output : Output) :
    ExpandM ExpandedResult := do
  let create := context.createPathForTask task fuel
  let source := context.project.source
  match output with
  | .tokenFunc func =>
    let innerResult ← context.replaceFunction task .outputs fuel func.toList
    return { result with
      files := result.files ++ innerResult.files
      globs := result.globs ++ innerResult.globs
      value := innerResult.value }
  | .tokenVar var =>
    let value ← context.replaceVariable task var.toList
    return { result with files := result.files ++ [context.joinSource source value] }
  | .file path optional =>
    let path ← create (context.toWorkspaceRelative source path.toList)
    return { result with
      filesForOutput := result.filesForOutput ++ [(path, ⟨optional.getD false⟩)] }
  | .glob pattern _ =>
    let glob ← create (context.toWorkspaceRelative source pattern.toList)
    return { result with globsForOutput := result.globsForOutput ++ [glob] }

def expandOutputs (fuel : Nat) : ExpandM ExpandedResult :=
  task.outputs.foldlM (context.expandOutput task fuel) {}

end ExpanderContext

end Moon
