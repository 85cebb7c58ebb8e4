import Moon.LocalGc

/-!
# The processes on one local storage

Uploads (`persist_manifest_in_backend`) and collections (`LocalStorage::gc`) take turns on the same
disk, one file at a time.
-/

namespace Moon

structure StagedBlob where
  digest : Digest
  bytes : Bytes
  modified : SystemTime
deriving DecidableEq

inductive UploadPhase
  | storingBlobs
  | checkingManifest
  | writingManifest
  /-- The manifest is not going to be stored, but spawned tasks may go on. -/
  | aborted
  | ended
deriving DecidableEq

structure Upload where
  digest : Digest
  manifest : Manifest
  startedAt : SystemTime
  pending : List BlobInput
  found : List Digest := []
  missing : List BlobInput := []
  staged : List StagedBlob := []
  written : List Digest := []
  phase : UploadPhase
deriving DecidableEq

inductive UploadEvent
  | look (input : BlobInput)
  | stage (input : BlobInput)
  | commit (blob : StagedBlob)
  | stored
  | checkManifest
  | writeManifest (modified : SystemTime)
  | abort
deriving DecidableEq

namespace Upload

def start (workspaceRoot : WorkspaceRoot) (disk : LocalDisk) (digest : Digest)
    (manifest : Manifest) : Upload :=
  let blobInputs := manifest.collectBlobInputs workspaceRoot
  if blobInputs.isEmpty then
    { digest, manifest, startedAt := disk.now, pending := [], phase := .checkingManifest }
  else
    { digest
      manifest := { manifest with uploadStartedAt := some disk.now }
      startedAt := disk.now
      pending := StorageBackend.retainUnseen [] blobInputs
      phase := .storingBlobs }

def isSettled (upload : Upload) : Bool := upload.phase = .aborted || upload.phase = .ended

/-- The tasks of the batches look, stage and commit in any order, and a blob is in place at most
`writeTime` after its content was staged. -/
def step (storage : LocalStorage) (writeTime : Nat) (disk : LocalDisk) (upload : Upload) :
    UploadEvent → Option (LocalDisk × Upload)
  | .look input =>
    if upload.phase = .storingBlobs ∧ input ∈ upload.pending then
      if disk.blobs.containsObject input.digest.hash then
        some (disk, { upload with
          pending := upload.pending.erase input
          found := input.digest :: upload.found })
      else
        some (disk, { upload with
          pending := upload.pending.erase input
          missing := input :: upload.missing })
    else none
  | .stage input =>
    if (upload.phase = .storingBlobs ∨ upload.phase = .aborted) ∧ upload.pending = [] ∧
        input ∈ upload.missing then
      match input.content.readBytes (storage.readFileBytes disk) with
      | .error _ => some (disk, { upload with phase := .aborted })
      | .ok bytes =>
        some (disk, { upload with
          missing := upload.missing.erase input
          staged := ⟨input.digest, bytes, disk.now⟩ :: upload.staged })
    else none
  | .commit blob =>
    if blob ∈ upload.staged ∧ disk.now ≤ blob.modified + writeTime then
      some ({ disk with
          blobs := disk.blobs.write blob.digest.hash blob.bytes blob.modified },
        { upload with
          staged := upload.staged.erase blob
          written := blob.digest :: upload.written })
    else none
  | .stored =>
    if upload.phase = .storingBlobs ∧ upload.pending = [] ∧ upload.missing = [] ∧
        upload.staged = [] then
      some (disk, { upload with
        manifest := { upload.manifest with uploadCompletedAt := some disk.now }
        phase := .checkingManifest })
    else none
  | .checkManifest =>
    if upload.phase = .checkingManifest then
      some (disk, { upload with
        phase := if disk.manifests.containsObject upload.digest.hash ||
            !upload.manifest.isSerializable then .ended
          else .writingManifest })
    else none
  | .writeManifest modified =>
    if upload.phase = .writingManifest ∧ modified ≤ disk.now then
      some ({ disk with
          manifests := disk.manifests.write upload.digest.hash
            (.json upload.manifest.serialized) modified },
        { upload with phase := .ended })
    else none
  | .abort =>
    if upload.phase = .storingBlobs then some (disk, { upload with phase := .aborted })
    else none

end Upload

structure CacheState where
  disk : LocalDisk
  uploads : Nat → Option Upload
  collections : Nat → Option Collection

/-- Steps of the processes that share a cache, in any order. -/
inductive CacheEvent
  | tick (now : SystemTime)
  | edit (path : PathBuf) (content : Option Bytes)
  | startUpload (id : Nat) (digest : Digest) (manifest : Manifest)
  | upload (id : Nat) (event : UploadEvent)
  | startCollection (id : Nat) (lifetime : Nat) (maxSize : Option Nat)
  | collection (id : Nat) (event : CollectionEvent)
deriving DecidableEq

namespace CacheState

variable (storage : LocalStorage) (workspaceRoot : WorkspaceRoot) (writeTime : Nat)

def idle (disk : LocalDisk) : CacheState := ⟨disk, fun _ => none, fun _ => none⟩

def settled (s : CacheState) (id : Nat) : Bool := (s.uploads id).any Upload.isSettled

def step (s : CacheState) : CacheEvent → Option CacheState
  | .tick now =>
    if s.disk.now ≤ now then some { s with disk := { s.disk with now := now } } else none
  | .edit path content =>
    let files := match content with
      | some bytes => s.disk.files.insert path bytes
      | none => s.disk.files.erase path
    some { s with disk := { s.disk with files := files } }
  | .startUpload id digest manifest =>
    if s.uploads id = none then
      some { s with
        uploads := Function.update s.uploads id
          (some (Upload.start workspaceRoot s.disk digest manifest)) }
    else none
  | .upload id event => do
    let upload ← s.uploads id
    let (disk, upload) ← upload.step storage writeTime s.disk event
    return { s with disk := disk, uploads := Function.update s.uploads id (some upload) }
  | .startCollection id lifetime maxSize =>
    if (s.collections id).isNone then
      some { s with
        collections := Function.update s.collections id
          (some (Collection.start s.disk lifetime maxSize s.settled)) }
    else none
  | .collection id event => do
    let collection ← s.collections id
    let (disk, collection) ← collection.step s.disk event
    return { s with
      disk := disk
      collections := Function.update s.collections id (some collection) }

end CacheState

end Moon
