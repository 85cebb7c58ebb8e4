import Mathlib.Algebra.Group.Int.Defs
import Mathlib.Algebra.Group.Nat.Defs
import Moon.Path

/-!
# Cache manifests

A manifest lists the outputs of a run, its blobs are fetched from the backends, and
`ManifestUnpacker` writes them below the workspace root.
-/

namespace Moon

abbrev Bytes := List UInt8

/-- Nanoseconds since the Unix epoch, negative before it. -/
abbrev SystemTime := Int

structure Digest where
  hash : String
  size : Int
deriving DecidableEq

def Digest.isValid (digest : Digest) : Bool := 0 ≤ digest.size && digest.hash != ""

/-- What a backend hands back for a digest: a reference to a file, or the bytes. -/
inductive BlobContent
  | file (path : PathBuf)
  | inline (bytes : Bytes)
deriving DecidableEq

/-- The content that is stored under a digest. Nothing ties one to the other. -/
structure BlobInput where
  content : BlobContent
  digest : Digest
deriving DecidableEq

structure ManifestFile where
  bytes : Option Bytes := none
  digest : Option Digest := none
  isExecutable : Bool := false
  modifiedAt : Option SystemTime := none
  path : WorkspaceRelativePath
  sourcePath : Option PathBuf := none
  unixMode : Option Nat := none
deriving DecidableEq

structure ManifestSymlink where
  modifiedAt : Option SystemTime := none
  path : WorkspaceRelativePath
  target : WorkspaceRelativePath
  unixMode : Option Nat := none
deriving DecidableEq

structure Manifest where
  files : List ManifestFile := []
  symlinks : List ManifestSymlink := []
  exitCode : Int := 0
  stderrBytes : Option Bytes := none
  stderrDigest : Option Digest := none
  stdoutBytes : Option Bytes := none
  stdoutDigest : Option Digest := none
  uploadStartedAt : Option SystemTime := none
  uploadCompletedAt : Option SystemTime := none
  /-- The fingerprint file that the key of the manifest was computed from. -/
  digestSource : Option ManifestFile := none
deriving DecidableEq

/-- A failed request to a backend, or a blob that could not be read. -/
structure StorageError where
  message : String
deriving DecidableEq

/-- The blobs of one response, where a digest answered twice keeps the last answer. -/
abbrev Blobs := List (Digest × BlobContent)

def Blobs.get (blobs : Blobs) (digest : Digest) : Option BlobContent :=
  (blobs.reverse.find? (fun blob => blob.1 == digest)).map Prod.snd

section Hydrate

-- `fs::read_file_bytes`, needed where a backend answers with a file reference.
variable (readFileBytes : PathBuf → Except StorageError Bytes) (manifest : Manifest)

def BlobContent.readBytes : BlobContent → Except StorageError Bytes
  | .file path => readFileBytes path
  | .inline bytes => .ok bytes

/-- The bytes of stdout or stderr, read through even for a file reference. -/
def Manifest.hydrateStdio (blobs : Blobs) (bytes : Option Bytes) (digest : Option Digest) :
    Except StorageError (Option Bytes) :=
  match bytes, digest.bind blobs.get with
  | none, some content => (content.readBytes readFileBytes).map some
  | bytes, _ => .ok bytes

def ManifestFile.hydrate (blobs : Blobs) (file : ManifestFile) : ManifestFile :=
  if file.bytes.isSome || file.sourcePath.isSome then file
  else
    match file.digest.bind blobs.get with
    | some (.file path) => { file with sourcePath := some path }
    | some (.inline bytes) => { file with bytes := some bytes }
    | none => file

def Manifest.hydrate (blobs : Blobs) : Except StorageError Manifest := do
  let stderrBytes ←
    Manifest.hydrateStdio readFileBytes blobs manifest.stderrBytes manifest.stderrDigest
  let stdoutBytes ←
    Manifest.hydrateStdio readFileBytes blobs manifest.stdoutBytes manifest.stdoutDigest
  return { manifest with
    stderrBytes := stderrBytes
    stdoutBytes := stdoutBytes
    files := manifest.files.map (ManifestFile.hydrate blobs) }

/-- A blob is resolved by its bytes, by having no digest, or by being empty. -/
def Manifest.resolved (bytes : Option Bytes) (digest : Option Digest) : Bool :=
  bytes.isSome || digest.all (fun digest => digest.size == 0)

def Manifest.isHydrated : Bool :=
  Manifest.resolved manifest.stderrBytes manifest.stderrDigest &&
    Manifest.resolved manifest.stdoutBytes manifest.stdoutDigest &&
    manifest.files.all (fun file =>
      file.sourcePath.isSome || Manifest.resolved file.bytes file.digest)

/-- The digest of a blob, where an empty one has no blob. -/
def Manifest.blobDigest : Option Digest → List Digest
  | some digest => if 0 < digest.size then [digest] else []
  | none => []

def Manifest.collectBlobDigests : List Digest :=
  Manifest.blobDigest manifest.stderrDigest ++ Manifest.blobDigest manifest.stdoutDigest ++
    manifest.files.flatMap (fun file => Manifest.blobDigest file.digest)

def Manifest.unhydratedBlobDigest (bytes : Option Bytes) (digest : Option Digest) : List Digest :=
  if bytes.isNone then Manifest.blobDigest digest else []

/-- Unlike `isHydrated`, this does not look at the source path of a file. -/
def Manifest.collectUnhydratedBlobDigests : List Digest :=
  Manifest.unhydratedBlobDigest manifest.stderrBytes manifest.stderrDigest ++
    Manifest.unhydratedBlobDigest manifest.stdoutBytes manifest.stdoutDigest ++
    manifest.files.flatMap (fun file => Manifest.unhydratedBlobDigest file.bytes file.digest)

/-- `collect_file` of `collect_blob_inputs`: where the content of a file is taken from. -/
def ManifestFile.blobContent (workspaceRoot : WorkspaceRoot) (file : ManifestFile)
    (digest : Digest) : BlobContent :=
  if digest.size = (0 : Int) then .inline []
  else
    match file.bytes, file.sourcePath with
    | some bytes, _ => .inline bytes
    | none, some source => .file source
    | none, none => .file (file.path.toLogicalPath workspaceRoot.path)

def ManifestFile.blobInput (workspaceRoot : WorkspaceRoot) (file : ManifestFile) :
    Option BlobInput :=
  file.digest.map (fun digest => ⟨file.blobContent workspaceRoot digest, digest⟩)

/-- `collect_stdio` of `collect_blob_inputs`. -/
def Manifest.stdioInput : Option Digest → Option Bytes → Option BlobInput
  | some digest, some bytes => some ⟨.inline bytes, digest⟩
  | _, _ => none

def Manifest.collectBlobInputs (workspaceRoot : WorkspaceRoot) (manifest : Manifest) :
    List BlobInput :=
  (manifest.digestSource.bind (ManifestFile.blobInput workspaceRoot)).toList ++
    manifest.files.filterMap (ManifestFile.blobInput workspaceRoot) ++
    (Manifest.stdioInput manifest.stderrDigest manifest.stderrBytes).toList ++
    (Manifest.stdioInput manifest.stdoutDigest manifest.stdoutBytes).toList

def ManifestFile.serialized (file : ManifestFile) : ManifestFile :=
  { file with bytes := none, sourcePath := none }

/-- A manifest that was written as JSON and read back: contents, source paths and the fingerprint
file are skipped. -/
def Manifest.serialized : Manifest :=
  { manifest with
    files := manifest.files.map ManifestFile.serialized
    stderrBytes := none
    stdoutBytes := none
    digestSource := none }

def Manifest.times : List SystemTime :=
  manifest.files.filterMap ManifestFile.modifiedAt ++
    manifest.symlinks.filterMap ManifestSymlink.modifiedAt ++
    manifest.uploadStartedAt.toList ++ manifest.uploadCompletedAt.toList

/-- `serde` has no JSON for a time before the Unix epoch. -/
def Manifest.isSerializable : Bool :=
  manifest.times.all (fun time => 0 ≤ time)

/-- The `while` loop of `Storage::hydrate_manifest` over the other readable backends. -/
def hydrateFromOthers : List (Except StorageError Blobs) → Manifest → Except StorageError Manifest
  | [], manifest => .ok manifest
  | response :: responses, manifest =>
    if manifest.isHydrated then .ok manifest
    else do
      let manifest ← manifest.hydrate readFileBytes (← response)
      hydrateFromOthers responses manifest

def hydrateManifest (original : Except StorageError Blobs)
    (others : List (Except StorageError Blobs)) (manifest : Manifest) :
    Except StorageError (Option Manifest) := do
  let manifest ← manifest.hydrate readFileBytes (← original)
  let manifest ← hydrateFromOthers readFileBytes others manifest
  return if manifest.isHydrated then some manifest else none

end Hydrate

/-- The bytes that `write_output_file` leaves at the path of an output: a clone of the
source file, or else what the manifest carries. -/
def ManifestFile.outputBytes (readFileBytes : PathBuf → Except StorageError Bytes)
    (file : ManifestFile) : Except StorageError Bytes :=
  match file.sourcePath with
  | some source => readFileBytes source
  | none => .ok (file.bytes.getD [])

inductive ManifestError
  | outputFileOutsideOfWorkspace (output : PathBuf)
  | outputSymlinkOutsideOfWorkspace (output : PathBuf) (target : WorkspaceRelativePath)
  | fs (path : PathBuf)
deriving DecidableEq

structure CreatedOutput where
  path : WorkspaceRelativePath
  location : PathBuf
deriving DecidableEq

/-- `fsWrite` is whether the file system accepts a write at a path. -/
structure ManifestUnpacker where
  workspaceRoot : WorkspaceRoot
  fsWrite : PathBuf → Bool

namespace ManifestUnpacker

/-- `PathBuf::from` of a raw relative path. A rooted path drops its `.` components. -/
def rawPath (relPath : WorkspaceRelativePath) : PathBuf :=
  ⟨relPath.hasRoot, if relPath.hasRoot then relPath.components.filter (· ≠ .curDir)
    else relPath.components⟩

def resolveAbsPath (unpacker : ManifestUnpacker) (relPath : WorkspaceRelativePath) :
    Except ManifestError PathBuf :=
  if relPath.hasRoot then
    .error (.outputFileOutsideOfWorkspace (rawPath relPath))
  else
    let outputPath := cleanComponents (relPath.toLogicalPath unpacker.workspaceRoot.path)
    if !outputPath.startsWith unpacker.workspaceRoot.path then
      .error (.outputFileOutsideOfWorkspace outputPath)
    else
      .ok outputPath

/-- Where an entry of the manifest is written. A symlink needs its target to resolve too. -/
def resolveLink (unpacker : ManifestUnpacker) (link : ManifestSymlink) :
    Except ManifestError PathBuf := do
  let outputPath ← unpacker.resolveAbsPath link.path
  match unpacker.resolveAbsPath link.target with
  | .error _ => .error (.outputSymlinkOutsideOfWorkspace outputPath link.target)
  | .ok _ => .ok outputPath

/-- Writes the entries up to the first failure. An entry whose write failed may have been created,
so it counts as created. -/
def createAll (unpacker : ManifestUnpacker) :
    List (WorkspaceRelativePath × Except ManifestError PathBuf) →
      List CreatedOutput × Except ManifestError Unit
  | [] => ([], .ok ())
  | (_, .error error) :: _ => ([], .error error)
  | (path, .ok location) :: entries =>
    if unpacker.fsWrite location then
      let rest := unpacker.createAll entries
      (⟨path, location⟩ :: rest.1, rest.2)
    else
      ([⟨path, location⟩], .error (.fs location))

/-- `unpack`: the files that carry a digest, then the symlinks. -/
def unpack (unpacker : ManifestUnpacker) (manifest : Manifest) :
    List CreatedOutput × Except ManifestError Unit :=
  let files := (manifest.files.filter (fun file => file.digest.isSome)).map
    (fun file => (file.path, unpacker.resolveAbsPath file.path))
  let symlinks := manifest.symlinks.map (fun link => (link.path, unpacker.resolveLink link))
  unpacker.createAll (files ++ symlinks)

end ManifestUnpacker

end Moon
