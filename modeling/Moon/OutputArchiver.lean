import Moon.ActionResult
import Moon.Storage

/-!
# Archiving outputs

`OutputArchiver::archive` stores a packed manifest in the caches of its own process, or
sends it to the daemon, which decodes it and stores it in the caches it has open.
-/

namespace Moon

structure ArchiveTaskOutputsRequest where
  taskTarget : String
  digest : Option ExternalDigest
  manifest : Option ActionResult
  includeLocal : Bool
  includeRemote : Bool
deriving DecidableEq

inductive StatusCode
  | invalidArgument
  | unknown
deriving DecidableEq

structure Status where
  code : StatusCode
  message : String
deriving DecidableEq

def DaemonClient.archiveTaskOutputs (taskTarget : String) (digest : Digest)
    (manifest : Manifest) (includeLocal includeRemote : Bool) : ArchiveTaskOutputsRequest where
  taskTarget := taskTarget
  digest := some digest.toExternalDigest
  manifest := some (manifest.intoBazelActionResult true)
  includeLocal := includeLocal
  includeRemote := includeRemote

section Archive

variable {σ : Type}

def Storage.withOptions (storage : Storage σ) (options : StorageOptions) : Storage σ :=
  { storage with options := options }

/-- `ok_or_else`, and an error that the decoder returned. -/
def DaemonService.decode {α β : Type} (missing : String) (convert : α → Except HashError β) :
    Option α → Except Status β
  | none => .error ⟨.invalidArgument, missing⟩
  | some message => (convert message).mapError (fun error => ⟨.unknown, error.message⟩)

/-- `archive_task_outputs` of the daemon, with the tasks it leaves in the background. -/
def DaemonService.archiveTaskOutputs (storage : Storage σ)
    (request : ArchiveTaskOutputsRequest) : Except Status (List (PersistTask σ)) := do
  let digest ← decode "Missing digest" ExternalDigest.toInternalDigest request.digest
  let manifest ← decode "Missing manifest" Manifest.fromBazelActionResult request.manifest
  return (storage.withOptions {
    includeLocal := request.includeLocal
    includeRemote := request.includeRemote }).archiveManifest digest manifest

/-- How `archive` stores a manifest, with the daemon or without it. -/
def OutputArchiver.archive (storage : Storage σ) (daemon : Bool) (taskTarget : String)
    (digest : Digest) (manifest : Manifest) (useLocal useRemote : Bool) :
    Except Status (List (PersistTask σ)) :=
  if !useLocal && !useRemote then
    .ok []
  else if daemon then
    DaemonService.archiveTaskOutputs storage
      (DaemonClient.archiveTaskOutputs taskTarget digest manifest useLocal useRemote)
  else
    .ok ((storage.withOptions {
      includeLocal := useLocal
      includeRemote := useRemote }).archiveManifest digest manifest)

end Archive

end Moon
