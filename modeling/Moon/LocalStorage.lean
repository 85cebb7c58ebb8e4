import Moon.Lib.Map
import Moon.Storage

/-!
# The local storage

`LocalStorage` keeps blobs and manifests in two stores, with one file per content hash that is
renamed into place as a whole. Only `read` compares a content with its hash, and only if configured
to.
-/

namespace Moon

/-- The shard directory of a hash: its first two characters. -/
def hashPrefix (hash : String) : String := String.ofList (hash.toList.take 2)

def hashSuffix (hash : String) : String := String.ofList (hash.toList.drop 2)

structure CasStore where
  objectsDir : PathBuf
  verifyIntegrity : Bool

inductive CasError
  | notFound (hash : String)
  | integrityMismatch (path : PathBuf) (expected actual : String)
deriving DecidableEq

structure CasObject (α : Type) where
  content : α
  modified : SystemTime
deriving DecidableEq

/-- The files of a store, by the hash that their path is made from. -/
abbrev CasObjects (α : Type) := Lib.Map String (CasObject α)

namespace CasObjects

variable {α : Type}

variable (objects : CasObjects α) (hash : String)

include hash

def containsObject : Bool := decide (hash ∈ objects)

/-- `write` and `write_file`: replaces what is there, without comparing it to the hash. -/
def write (content : α) (modified : SystemTime) :
    CasObjects α :=
  objects.insert hash ⟨content, modified⟩

/-- `touch`, whose error for a missing object the callers ignore. -/
def touch (now : SystemTime) : CasObjects α :=
  match objects.lookup hash with
  | none => objects
  | some object => objects.write hash object.content now

end CasObjects

namespace CasStore

variable {α : Type}

def objectPath (store : CasStore) (hash : String) : PathBuf :=
  (store.objectsDir.push (.normal (hashPrefix hash))).push (.normal (hashSuffix hash))

def hashOfPath (store : CasStore) (path : PathBuf) : Option String :=
  match path.components.drop store.objectsDir.components.length with
  | [.normal shard, .normal name] =>
    if store.objectPath (shard ++ name) = path then some (shard ++ name) else none
  | _ => none

def read (store : CasStore) (sha256 : α → String) (objects : CasObjects α) (hash : String) :
    Except CasError α :=
  match objects.lookup hash with
  | none => .error (.notFound hash)
  | some object =>
    if store.verifyIntegrity && sha256 object.content != hash then
      .error (.integrityMismatch (store.objectPath hash) hash (sha256 object.content))
    else
      .ok object.content

end CasStore

/-- The text of a stored manifest, by what it parses to. -/
inductive StoredManifest
  | json (manifest : Manifest)
  | unparseable
deriving DecidableEq

structure LocalDisk where
  blobs : CasObjects Bytes
  manifests : CasObjects StoredManifest
  files : Lib.Map PathBuf Bytes
  now : SystemTime

/-- The hash of a manifest is not that of its content, so reading one never compares them. -/
structure LocalStorage where
  id : String
  blobs : CasStore
  manifests : CasStore
  manifests_unverified : manifests.verifyIntegrity = false

def CasError.toStorageError : CasError → StorageError
  | .notFound hash => ⟨s!"Blob not found in CAS store for content hash {hash}."⟩
  | .integrityMismatch path expected actual =>
    ⟨s!"Integrity check failed for blob at {path.rawText.asStr}: expected {expected}, " ++
      s!"computed {actual}."⟩

namespace LocalStorage

variable (storage : LocalStorage)

/-- `fs::read_file_bytes`, of an object of the blob store or of any other file. -/
def readFileBytes (disk : LocalDisk) (path : PathBuf) : Except StorageError Bytes :=
  let content :=
    match storage.blobs.hashOfPath path with
    | some hash => (disk.blobs.lookup hash).map CasObject.content
    | none => disk.files.lookup path
  match content with
  | some content => .ok content
  | none => .error ⟨s!"Failed to read path {path.rawText.asStr}."⟩

-- The hash of the text of a stored manifest, which is never asked for.
variable (sha256 : StoredManifest → String)

def retrieveManifest (digest : Digest) :
    StateM LocalDisk (Except StorageError (Option Manifest)) := fun disk =>
  if disk.manifests.containsObject digest.hash then
    match storage.manifests.read sha256 disk.manifests digest.hash with
    | .error error => (.error error.toStorageError, disk)
    | .ok .unparseable => (.error ⟨"expected value at line 1 column 1"⟩, disk)
    | .ok (.json manifest) =>
      -- a hit refreshes the manifest for the garbage collector
      (.ok (some manifest.serialized),
        { disk with manifests := disk.manifests.touch digest.hash disk.now })
  else
    (.ok none, disk)

/-- A manifest that is there already is kept, whatever it is. -/
def storeManifest (digest : Digest) (manifest : Manifest) :
    StateM LocalDisk (Except StorageError Unit) := fun disk =>
  if disk.manifests.containsObject digest.hash then
    (.ok (), disk)
  else if !manifest.isSerializable then
    (.error ⟨"SystemTime must be later than UNIX_EPOCH"⟩, disk)
  else
    (.ok (), { disk with
      manifests := disk.manifests.write digest.hash (.json manifest.serialized) disk.now })

def findMissingBlobs (digests : List Digest) :
    StateM LocalDisk (Except StorageError (List Digest)) := fun disk =>
  (.ok (digests.filter (fun digest => !disk.blobs.containsObject digest.hash)), disk)

/-- Hands out the paths of the objects, without a look at their content. -/
def retrieveBlobs (digests : List Digest) :
    StateM LocalDisk (Except StorageError Blobs) := fun disk =>
  (.ok (digests.filterMap (fun digest =>
    if disk.blobs.containsObject digest.hash then
      some (digest, .file (storage.blobs.objectPath digest.hash))
    else none)), disk)

/-- The loop of `store_blobs`, which ends at the first content that cannot be read. -/
def storeBlobs (storage : LocalStorage) :
    List BlobInput → StateM LocalDisk (Except StorageError (List Digest))
  | [] => pure (.ok [])
  | input :: inputs => do
    let disk ← get
    match input.content.readBytes (storage.readFileBytes disk) with
    | .error error => return .error error
    | .ok bytes =>
      set { disk with blobs := disk.blobs.write input.digest.hash bytes disk.now }
      match ← storeBlobs storage inputs with
      | .error error => return .error error
      | .ok digests => return .ok (input.digest :: digests)

def backend : StorageBackend LocalDisk where
  id := storage.id
  capabilities := {}
  isReadable := true
  isWritable := true
  retrieveManifest := storage.retrieveManifest sha256
  storeManifest := storeManifest
  findMissingBlobs := findMissingBlobs
  storeBlobs inputs _ := storage.storeBlobs inputs
  retrieveBlobs digests _ := storage.retrieveBlobs digests

def alone (workspaceRoot : WorkspaceRoot) : Storage LocalDisk where
  localBackends := [storage.backend sha256]
  remoteBackends := []
  workspaceRoot := workspaceRoot

end LocalStorage

end Moon
