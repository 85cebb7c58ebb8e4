import Moon.AffectedTracker
import Moon.ManifestPacker

/-!
# The inputs of a task

Inputs are looked at twice: `TaskHasher` collects the files that go into a fingerprint, and
`AffectedTracker` matches the files that have changed.
-/

namespace Moon

/-- The glob library: what a pattern says and whether it is negated, how an expression matches
a path, and which files a walk finds. -/
structure GlobEngine where
  parse : String → Bool × String
  compile : String → Except String (String → Bool)
  walkFast : (cache : Bool) → (dir : PathBuf) → (patterns : List String) →
    Except String (List PathBuf)

structure GlobSet where
  expressions : List (String → Bool)
  negations : List (String → Bool)

namespace GlobSet

variable (engine : GlobEngine)

def splitPatterns (patterns : List String) : List String × List String :=
  ((patterns.filter (fun pattern => !(engine.parse pattern).1)).map
      (fun pattern => (engine.parse pattern).2),
    (patterns.filter (fun pattern => (engine.parse pattern).1)).map
      (fun pattern => (engine.parse pattern).2))

def newSplit (expressions negations : List String) : Except String GlobSet := do
  let expressions ← expressions.mapM engine.compile
  let negations ← negations.mapM engine.compile
  return { expressions := expressions, negations := negations }

def new (patterns : List String) : Except String GlobSet :=
  newSplit engine (splitPatterns engine patterns).1 (splitPatterns engine patterns).2

variable (globset : GlobSet) (path : String)

def isIncluded : Bool :=
  globset.expressions.any (fun expression => expression path)

def isExcluded : Bool :=
  globset.negations.any (fun expression => expression path)

def isMatch : Bool :=
  !globset.isExcluded path && globset.isIncluded path

end GlobSet

namespace Task

variable (engine : GlobEngine)

/-- All outputs are negations, even those that are negated. -/
def createGlobset (task : Task) : Except String GlobSet :=
  let inputs := GlobSet.splitPatterns engine (task.inputGlobs.map (·.1.asStr))
  let outputs := GlobSet.splitPatterns engine (task.outputGlobs.map (·.asStr))
  GlobSet.newSplit engine inputs.1 (outputs.1 ++ inputs.2 ++ outputs.2)

/-- Nothing is walked without globs. -/
def walkGlobs (cache : Bool) (workspaceRoot : PathBuf)
    (globs : List (WorkspaceRelativePath × TaskGlobInput)) : Except String (List PathBuf) :=
  if globs.isEmpty then .ok []
  else engine.walkFast cache workspaceRoot (globs.map (·.1.asStr))

/-- Globs that are cached are walked apart from those that are not. -/
def getInputFilesWithGlobs (workspaceRoot : PathBuf)
    (globs : List (WorkspaceRelativePath × TaskGlobInput)) : Except String (List PathBuf) := do
  let cached ← walkGlobs engine true workspaceRoot (globs.filter (·.2.cache))
  let nonCached ← walkGlobs engine false workspaceRoot (globs.filter (!·.2.cache))
  return cached ++ nonCached

/-- Input files that are no files are left out. -/
def getInputFiles (task : Task) (isFile : PathBuf → Bool) (workspaceRoot : PathBuf) :
    Except String (List PathBuf) := do
  let files := (task.inputFiles.map (·.1.toLogicalPath workspaceRoot)).filter isFile
  return files ++ (← getInputFilesWithGlobs engine workspaceRoot task.inputGlobs)

def findInputFile (task : Task) (path : WorkspaceRelativePath) : Option TaskFileInput :=
  (task.inputFiles.find? (fun entry => entry.1.eq path)).map (·.2)

end Task

/-- `ends_with` compares components. -/
def WorkspaceRelativePath.endsWith (path suffix : WorkspaceRelativePath) : Bool :=
  suffix.components.isSuffixOf path.components

inductive HasherWalkStrategy
  | glob
  | vcs
deriving DecidableEq

structure HasherConfig where
  ignoreMissingPatterns : List String := []
  ignorePatterns : List String := []
  walkStrategy : HasherWalkStrategy := .vcs

structure HasherContext where
  workspaceRoot : PathBuf
  configExts : List String := []
  vcsEnabled : Bool := true
  fileTree : WorkspaceRelativePath → Except String (List WorkspaceRelativePath) := fun _ => .ok []
  /-- All files that are listed as changed, deleted ones too. -/
  changedFiles : Except String (List WorkspaceRelativePath) := .ok []
  fileExists : PathBuf → Bool
  isFile : PathBuf → Bool
  engine : GlobEngine

structure TaskHasher where
  context : HasherContext
  project : Project
  task : Task
  hasherConfig : HasherConfig := {}

namespace TaskHasher

section

variable (hasher : TaskHasher)

include hasher

def relPath (absPath : PathBuf) : WorkspaceRelativePath :=
  absPath.relativeTo hasher.context.workspaceRoot

def toLogicalPath (path : WorkspaceRelativePath) : PathBuf :=
  path.toLogicalPath hasher.context.workspaceRoot

def globbedInputs : Except String (List PathBuf) :=
  let { context, project, task, hasherConfig } := hasher
  if task.inputGlobs.isEmpty then .ok []
  else if project.root = context.workspaceRoot ∨ hasherConfig.walkStrategy = .glob ∨
      !context.vcsEnabled then
    Task.getInputFilesWithGlobs context.engine context.workspaceRoot task.inputGlobs
  else do
    let tree ← context.fileTree project.source
    let globbed ← Task.getInputFilesWithGlobs context.engine context.workspaceRoot
      (task.inputGlobs.filter (!·.1.startsWith project.source))
    return tree.map hasher.toLogicalPath ++ globbed

/-- A file that is listed as changed and does not exist was deleted. -/
def applyChange (files : List PathBuf) (file : WorkspaceRelativePath) :
    List PathBuf :=
  let absFile := hasher.toLogicalPath file
  if hasher.context.fileExists absFile then
    if file.startsWith hasher.project.source then files.insert absFile else files
  else files.filter (· ≠ absFile)

def aggregateInputs : Except String (List PathBuf) := do
  let globbed ← hasher.globbedInputs
  let files := hasher.task.inputFiles.map (fun entry => hasher.toLogicalPath entry.1) ++ globbed
  if hasher.context.vcsEnabled then
    return (← hasher.context.changedFiles).foldl hasher.applyChange files
  else
    return files

def isValidInputSource (globset : GlobSet) (path : WorkspaceRelativePath) : Bool :=
  if hasher.task.state.defaultInputs &&
      hasher.context.configExts.any (fun ext => path.endsWith ⟨["moon." ++ ext]⟩) then false
  else if globset.isExcluded path.asStr then false
  else if hasher.task.outputFiles.any (fun output =>
      path.eq output.1 || path.startsWith output.1) then false
  else if !path.startsWith hasher.project.source then true
  else (hasher.task.findInputFile path).isSome || globset.isMatch path.asStr

end

def hasFilters (task : Task) : Bool :=
  !task.inputFiles.isEmpty || !task.inputGlobs.isEmpty || !task.outputGlobs.isEmpty

/-- The text of `TaskHasherError::MissingInputFile`. -/
def missingInputFile (path : WorkspaceRelativePath) (target : Target) : String :=
  "Input file " ++ path.asStr ++ " for task " ++ target.asStr ++ " does not exist, but is " ++
    "required for hashing as the optional input parameter is configured."

/-- One turn of the loop in `process_inputs`, with the path if it is hashed. -/
def processInput (hasher : TaskHasher) (globset ignore : GlobSet) (absPath : PathBuf) :
    Except String (Option WorkspaceRelativePath) :=
  let path := hasher.relPath absPath
  if hasFilters hasher.task && !hasher.isValidInputSource globset path then .ok none
  else if !hasher.context.fileExists absPath then
    if (hasher.task.findInputFile path).any (·.optional == some false) then
      .error (missingInputFile path hasher.task.target)
    else .ok none
  else if !hasher.context.isFile absPath then .ok none
  else if ignore.isIncluded absPath.rawText.asStr then .ok none
  else .ok (some path)

def processInputs (hasher : TaskHasher) (inputs : List PathBuf) :
    Except String (List WorkspaceRelativePath) := do
  let ignore ← GlobSet.new hasher.context.engine hasher.hasherConfig.ignorePatterns
  let _ignoreMissing ← GlobSet.new hasher.context.engine hasher.hasherConfig.ignoreMissingPatterns
  let globset ← hasher.task.createGlobset hasher.context.engine
  let paths ← inputs.mapM (hasher.processInput globset ignore)
  return paths.reduceOption

def hashInputs (hasher : TaskHasher) : Except String (List WorkspaceRelativePath) := do
  let inputs ← hasher.aggregateInputs
  let files ← hasher.processInputs inputs
  return if hasher.context.vcsEnabled then files else []

end TaskHasher

/-- The changed files, and what else the tracker reads. -/
structure ChangeSet where
  workspaceRoot : PathBuf
  changedFiles : List WorkspaceRelativePath
  env : String → Option String
  fileExists : PathBuf → Bool
  readFile : PathBuf → Except String String
  isMatch : String → String → Bool
  engine : GlobEngine

namespace ChangeSet

def isFileAffected (changes : ChangeSet) (task : Task) (globset : GlobSet)
    (file : WorkspaceRelativePath) : Except String Bool :=
  match task.findInputFile file with
  | some params =>
    match params.content with
    | some pattern =>
      let absFile := file.toLogicalPath changes.workspaceRoot
      if changes.fileExists absFile then do
        return changes.isMatch pattern (← changes.readFile absFile)
      else .ok false
    | none => .ok true
  | none => .ok (globset.isMatch file.asStr)

def findAffectedFile (changes : ChangeSet) (task : Task) (globset : GlobSet) :
    List WorkspaceRelativePath → Except String (Option WorkspaceRelativePath)
  | [] => .ok none
  | file :: files => do
    if ← changes.isFileAffected task globset file then return some file
    else findAffectedFile changes task globset files

/-- The part of `is_task_affected` that comes after the check of `runInCI`. -/
def changedInput (changes : ChangeSet) (task : Task) : Except String (Option ChangedInput) :=
  if task.state.emptyInputs then .ok none
  else
    match task.inputEnv.find? (fun name => (changes.env name).any (· ≠ "")) with
    | some name => .ok (some (.environmentVariable name))
    | none => do
      let globset ← task.createGlobset changes.engine
      return (← changes.findAffectedFile task globset changes.changedFiles).map .file

/-- A project at the root is affected by any file that is not a dotfile. -/
def changedSource (changes : ChangeSet) (project : Project) : Option WorkspaceRelativePath :=
  if project.source.asStr = "" ∨ project.source.asStr = "." then
    changes.changedFiles.find? (fun file => !(file.asStr.startsWith "."))
  else
    changes.changedFiles.find? (fun file => file.startsWith project.source)

def tracker (changes : ChangeSet) (workspace : WorkspaceGraph) (ci : Bool) :
    AffectedTrackerConfig :=
  { workspace := workspace
    ci := ci
    changedInput := changes.changedInput
    changedSource := changes.changedSource }

end ChangeSet

end Moon
