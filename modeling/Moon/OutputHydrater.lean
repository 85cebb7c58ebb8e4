import Moon.RunState

/-!
# Output hydration

`OutputHydrater`: restores the outputs of a task from the previous run, from a local archive or
from a manifest of a storage backend.
-/

namespace Moon

/-- `ManifestSource`, with whether the backend it was loaded from is remote. -/
structure ManifestSource where
  manifest : Manifest
  remote : Bool
deriving DecidableEq

inductive HydrateFrom
  | previousOutput
  | localArchive
  | storage (source : ManifestSource)
deriving DecidableEq

inductive HydrateOutcome
  | skipped
  | missed
  | hit
  | hitFromStorage (manifest : Manifest) (remote : Bool)
deriving DecidableEq

/-- The manifest paths that unpacking may write, and that validation therefore checks. -/
def Manifest.outputPaths (manifest : Manifest) : List WorkspaceRelativePath :=
  (manifest.files.filter (fun file => file.digest.isSome)).map ManifestFile.path ++
    manifest.symlinks.map ManifestSymlink.path

/-- The compiled glob set is third-party and matches raw path texts. -/
structure OutputHydrater where
  task : Task
  workspaceRoot : WorkspaceRoot
  taskOutputGlobset : WorkspaceRelativePath → Bool

/-- What hydrating reads from the disk and the storage. -/
structure HydrateEnv where
  archiveExists : String → Bool := fun _ => false
  unpackArchive : Bool := true
  getOutputFiles : Except TaskRunnerError (List PathBuf) := .ok []
  readFileBytes : PathBuf → Except StorageError Bytes := fun _ => .ok []
  originalBlobs : Except StorageError Blobs := .ok []
  /-- The other readable backends, by whether local and remote ones are included. -/
  otherBlobs : Bool → Bool → List (Except StorageError Blobs) := fun _ _ => []
  fsWrite : PathBuf → Bool := fun _ => true
  /-- With a daemon, whether the request reaches it and its response can be read back. -/
  daemon : Option (Except TaskRunnerError Unit) := none

namespace OutputHydrater

variable (hydrater : OutputHydrater)

def validateOutputPath (relPath : WorkspaceRelativePath) : Except TaskRunnerError Unit :=
  if hydrater.task.outputFiles.any (fun output => output.1.eq relPath) then
    .ok ()
  else if hydrater.task.outputFiles.any (fun output => relPath.startsWith output.1) then
    .ok ()
  else if !hydrater.task.outputGlobs.isEmpty && hydrater.taskOutputGlobset relPath then
    .ok ()
  else
    .error (.outputFileNotDeclared hydrater.task.target
      (relPath.toLogicalPath hydrater.workspaceRoot.path))

def validateOutputPaths (manifest : Manifest) : Except TaskRunnerError Unit :=
  manifest.outputPaths.forM hydrater.validateOutputPath

variable (env : HydrateEnv)

/-- Only the glob walk can fail, a file that cannot be removed is skipped. -/
def deleteExistingOutputs : Except TaskRunnerError Unit :=
  env.getOutputFiles.map (fun _ => ())

def unpackLocalArchive (hash : String) (state : TaskRunState) :
    Except TaskRunnerError HydrateOutcome :=
  if !state.localCacheReadable || !env.archiveExists hash then
    .ok .skipped
  else if !env.unpackArchive then do
    deleteExistingOutputs env
    return .missed
  else
    .ok .hit

/-- `storage.hydrate_manifest` and then `ManifestUnpacker::unpack`. -/
def hydrateAndUnpack (useLocal useRemote : Bool) (manifest : Manifest) :
    List CreatedOutput × Except TaskRunnerError (Option Manifest) :=
  match hydrateManifest env.readFileBytes env.originalBlobs (env.otherBlobs useLocal useRemote)
    manifest with
  | .error error => ([], .error (.storage error))
  | .ok none => ([], .ok none)
  | .ok (some manifest) =>
    let unpacked := ManifestUnpacker.unpack ⟨hydrater.workspaceRoot, env.fsWrite⟩ manifest
    match unpacked.2 with
    | .error error => (unpacked.1, .error (.manifest error))
    | .ok _ => (unpacked.1, .ok (some manifest))

/-- The daemon does the same, but answers "not hydrated" where fetching the blobs failed, and sends
the manifest back without the contents. -/
def hydrateTaskOutputs (response : Except TaskRunnerError Unit)
    (useLocal useRemote : Bool) (manifest : Manifest) :
    List CreatedOutput × Except TaskRunnerError (Option Manifest) :=
  match response with
  | .error error => ([], .error error)
  | .ok _ =>
    match hydrater.hydrateAndUnpack env useLocal useRemote manifest with
    | (created, .error (.storage _)) => (created, .ok none)
    | (created, .ok (some manifest)) =>
      (created, .ok (some { manifest with
        files := manifest.files.map (fun file => { file with bytes := none }) }))
    | (created, result) => (created, result)

/-- `hydrate`, with the outputs it created and its result. What a local archive unpacks is
up to the archiver and is not listed. -/
def hydrate (source : HydrateFrom) (hash : String) (state : TaskRunState) :
    List CreatedOutput × Except TaskRunnerError HydrateOutcome :=
  match source with
  | .previousOutput => ([], .ok .hit)
  | .localArchive => ([], unpackLocalArchive env hash state)
  | .storage source =>
    if !source.remote && !state.localCasEnabled then
      ([], unpackLocalArchive env hash state)
    else if !state.localCacheReadable && !state.remoteCacheReadable then
      ([], .ok .skipped)
    else
      let useLocal := state.localCasEnabled && state.localCacheReadable
      let useRemote := state.remoteCacheReadable
      match hydrater.validateOutputPaths source.manifest, deleteExistingOutputs env with
      | .error error, _ => ([], .error error)
      | .ok _, .error error => ([], .error error)
      | .ok _, .ok _ =>
        let hydrated :=
          match env.daemon with
          | some response =>
            hydrater.hydrateTaskOutputs env response useLocal useRemote source.manifest
          | none => hydrater.hydrateAndUnpack env useLocal useRemote source.manifest
        (hydrated.1, hydrated.2.map (fun manifest =>
          match manifest with
          | some manifest => .hitFromStorage manifest source.remote
          | none => .missed))

end OutputHydrater

end Moon
