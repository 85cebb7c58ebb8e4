import Moon.StorageBackend

/-!
# The cache storage

`Storage` over its local and remote backends: loading and archiving manifests, and filling
a manifest with the contents of its blobs from whichever backends hold them.
-/

namespace Moon

structure StorageEnv (σ : Type) where
  now : σ → SystemTime
  readFileBytes : σ → PathBuf → Except StorageError Bytes
  schedule : σ → Schedule

structure StorageOptions where
  onlyBackends : List String := []
  includeLocal : Bool := true
  includeRemote : Bool := true

structure Storage (σ : Type) where
  localBackends : List (StorageBackend σ)
  remoteBackends : List (StorageBackend σ)
  workspaceRoot : WorkspaceRoot
  options : StorageOptions := {}

structure LoadedManifest (σ : Type) where
  backend : StorageBackend σ
  manifest : Manifest
  remote : Bool

structure PersistTask (σ : Type) where
  backend : StorageBackend σ
  digest : Digest
  manifest : Manifest

section Persist

variable {σ : Type} (env : StorageEnv σ)

/-- The blobs of `persist_manifest_in_backend`. The manifest that is returned is stored
next, and without one the manifest is not stored. -/
def storeManifestBlobs (workspaceRoot : WorkspaceRoot) (backend : StorageBackend σ)
    (manifest : Manifest) : StateM σ (Option Manifest) := do
  let blobInputs := manifest.collectBlobInputs workspaceRoot
  if blobInputs.isEmpty then
    return some manifest
  let startedAt := env.now (← get)
  let stored ← backend.storeBlobsBatched env.schedule blobInputs
  let completedAt := env.now (← get)
  if stored.success then
    return some { manifest with
      uploadStartedAt := some startedAt
      uploadCompletedAt := some completedAt }
  else
    return none

/-- A manifest that could not be stored is only logged. -/
def persistManifestInBackend (workspaceRoot : WorkspaceRoot) (task : PersistTask σ) :
    StateM σ Unit := do
  match ← storeManifestBlobs env workspaceRoot task.backend task.manifest with
  | none => return ()
  | some manifest =>
    if task.backend.capabilities.storeManifests then
      let _ ← task.backend.storeManifest task.digest manifest
      return ()
    else
      return ()

end Persist

section Hydrate

variable {σ : Type} (env : StorageEnv σ)

def hydrateManifestFromBackend (backend : StorageBackend σ) (manifest : Manifest) :
    StateM σ (Except StorageError (Manifest × Blobs)) := do
  let received ← backend.retrieveBlobsBatched env.schedule manifest.collectUnhydratedBlobDigests
  return (manifest.hydrate (env.readFileBytes (← get)) received.blobs).map
    (fun hydrated => (hydrated, received.blobs))

/-- The blobs that were missing in the original backend and came from another one. -/
def copiedInputs (unhydratedDigests : List Digest) (blobs : Blobs) : List BlobInput :=
  unhydratedDigests.filterMap (fun digest =>
    (blobs.get digest).map (fun content => ⟨content, digest⟩))

def hydrateManifestFromBackendAndCopyToOriginal (original backend : StorageBackend σ)
    (manifest : Manifest) : StateM σ (Except StorageError Manifest) := do
  match ← hydrateManifestFromBackend env backend manifest with
  | .error error => return .error error
  | .ok (hydrated, blobs) =>
    let blobInputs := copiedInputs manifest.collectUnhydratedBlobDigests blobs
    if !blobInputs.isEmpty && original.isWritable then
      let _ ← original.storeBlobsBatched env.schedule blobInputs
      return .ok hydrated
    else
      return .ok hydrated

def hydrateFromBackends (original : StorageBackend σ) :
    List (StorageBackend σ) → Manifest → StateM σ (Except StorageError Manifest)
  | [], manifest => pure (.ok manifest)
  | backend :: backends, manifest => do
    if manifest.isHydrated then
      return .ok manifest
    else if !backend.isReadable || backend.id == original.id then
      hydrateFromBackends original backends manifest
    else
      match ← hydrateManifestFromBackendAndCopyToOriginal env original backend manifest with
      | .error error => return .error error
      | .ok manifest => hydrateFromBackends original backends manifest

end Hydrate

namespace Storage

variable {σ : Type} (env : StorageEnv σ)

variable (storage : Storage σ)

def getBackendsWithOptions (options : StorageOptions) : List (StorageBackend σ) :=
  let backends :=
    (if options.includeLocal then storage.localBackends else []) ++
      (if options.includeRemote then storage.remoteBackends else [])
  if options.onlyBackends.isEmpty then backends
  else backends.filter (fun backend => options.onlyBackends.contains backend.id)

def getBackends : List (StorageBackend σ) := storage.getBackendsWithOptions storage.options

def getLocalBackends : List (StorageBackend σ) :=
  storage.getBackendsWithOptions { storage.options with includeRemote := false }

def retrieveBlobsFrom (digests : List Digest) : List (StorageBackend σ) → StateM σ Blobs
  | [] => pure []
  | backend :: backends => do
    if !backend.isReadable then
      retrieveBlobsFrom digests backends
    else
      let result ← backend.retrieveBlobsBatched env.schedule digests
      if result.blobs.isEmpty then retrieveBlobsFrom digests backends
      else return result.blobs

/-- `retrieve_blobs`, which has no error of its own: the batched request logs them. -/
def retrieveBlobs (digests : List Digest) : StateM σ Blobs :=
  retrieveBlobsFrom env digests storage.getBackends

def loadManifestFrom (storage : Storage σ) (digest : Digest) :
    List (StorageBackend σ) → StateM σ (Except StorageError (Option (LoadedManifest σ)))
  | [] => pure (.ok none)
  | backend :: backends => do
    if !backend.isReadable then
      loadManifestFrom storage digest backends
    else
      match ← backend.retrieveManifest digest with
      | .error error => return .error error
      | .ok none => loadManifestFrom storage digest backends
      | .ok (some manifest) =>
        return .ok (some {
          backend := backend
          manifest := manifest
          remote := storage.remoteBackends.any (fun remote => remote.id == backend.id) })

def loadManifest (digest : Digest) : StateM σ (Except StorageError (Option (LoadedManifest σ))) :=
  storage.loadManifestFrom digest storage.getBackends

/-- `archive_manifest`: the tasks it spawns, one for each writable backend. -/
def archiveManifest (digest : Digest) (manifest : Manifest) : List (PersistTask σ) :=
  (storage.getBackends.filter StorageBackend.isWritable).map (fun backend =>
    ⟨backend, digest, manifest⟩)

def warmLocalBackends (digest : Digest) (manifest : Manifest) : List (PersistTask σ) :=
  (storage.getLocalBackends.filter StorageBackend.isWritable).map (fun backend =>
    ⟨backend, digest, manifest⟩)

/-- `hydrate_manifest`, with the tasks it leaves in the background. -/
def hydrateManifest (digest : Digest) (source : LoadedManifest σ) :
    StateM σ (Except StorageError (Option Manifest × List (PersistTask σ))) := do
  match ← hydrateManifestFromBackend env source.backend source.manifest with
  | .error error => return .error error
  | .ok (manifest, _) =>
    match ← hydrateFromBackends env source.backend storage.getBackends manifest with
    | .error error => return .error error
    | .ok manifest =>
      if manifest.isHydrated then
        return .ok (some manifest,
          if source.remote then storage.warmLocalBackends digest manifest else [])
      else
        return .ok (none, [])

end Storage

end Moon
