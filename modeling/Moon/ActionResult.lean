import Moon.Manifest

/-!
# Manifests as Bazel action results

The wire form of a manifest, which remote backends and the daemon exchange.
-/

namespace Moon

structure Timestamp where
  seconds : Int
  nanos : Int
deriving DecidableEq

def NANOS_PER_SEC : Int := 1000000000

/-- A time before the epoch has no timestamp. -/
def createTimestamp (time : SystemTime) : Option Timestamp :=
  if 0 ≤ time then some ⟨time / NANOS_PER_SEC, time % NANOS_PER_SEC⟩ else none

/-- A signed integer cast to an unsigned one of that many bits. -/
def asUnsigned (bits : Nat) (n : Int) : Int := if n < 0 then n + 2 ^ bits else n

def createFromTimestamp (timestamp : Timestamp) : SystemTime :=
  asUnsigned 64 timestamp.seconds * NANOS_PER_SEC + asUnsigned 32 timestamp.nanos

inductive HashError
  | invalidContentHash (hash : String)
deriving DecidableEq

def HashError.message : HashError → String
  | .invalidContentHash hash =>
    "Invalid SHA256 content hash: expected 64 hex characters, got " ++ hash ++ "."

def isAsciiHexdigit (c : Char) : Bool :=
  ('0' ≤ c && c ≤ '9') || ('a' ≤ c && c ≤ 'f') || ('A' ≤ c && c ≤ 'F')

/-- Whether `ContentHash::from_hex` accepts a text. -/
def isContentHash (hex : String) : Bool := hex.utf8ByteSize == 64 && hex.toList.all isAsciiHexdigit

structure ExternalDigest where
  hash : String
  sizeBytes : Int
deriving DecidableEq

def Digest.toExternalDigest (digest : Digest) : ExternalDigest := ⟨digest.hash, digest.size⟩

def ExternalDigest.toInternalDigest (digest : ExternalDigest) : Except HashError Digest :=
  if isContentHash digest.hash then .ok ⟨digest.hash, digest.sizeBytes⟩
  else .error (.invalidContentHash digest.hash)

def ExternalDigest.toInternalDigest? : Option ExternalDigest → Except HashError (Option Digest)
  | some digest => digest.toInternalDigest.map some
  | none => .ok none

structure NodeProperties where
  mtime : Option Timestamp := none
  unixMode : Option Nat := none
deriving DecidableEq

structure OutputFile where
  contents : Bytes
  digest : Option ExternalDigest
  isExecutable : Bool
  path : WorkspaceRelativePath
  nodeProperties : Option NodeProperties
deriving DecidableEq

structure OutputSymlink where
  path : WorkspaceRelativePath
  target : WorkspaceRelativePath
  nodeProperties : Option NodeProperties
deriving DecidableEq

structure ExecutedActionMetadata where
  worker : String := ""
  outputUploadStartTimestamp : Option Timestamp := none
  outputUploadCompletedTimestamp : Option Timestamp := none
deriving DecidableEq

structure ActionResult where
  outputFiles : List OutputFile := []
  outputSymlinks : List OutputSymlink := []
  exitCode : Int := 0
  stderrDigest : Option ExternalDigest := none
  stderrRaw : Bytes := []
  stdoutDigest : Option ExternalDigest := none
  stdoutRaw : Bytes := []
  executionMetadata : Option ExecutedActionMetadata := none
deriving DecidableEq

/-- The bytes that a message inlines. An empty field is no content: the blob has it. -/
def inlined (raw : Bytes) : Option Bytes := if raw.isEmpty then none else some raw

/-- Contents without a digest are dropped. -/
def ManifestFile.fromBazelFile (file : OutputFile) : Except HashError ManifestFile := do
  let props := file.nodeProperties.getD {}
  let digest ← ExternalDigest.toInternalDigest? file.digest
  return {
    bytes := if file.digest.isSome then inlined file.contents else none
    digest := digest
    isExecutable := file.isExecutable
    modifiedAt := props.mtime.map createFromTimestamp
    path := file.path
    sourcePath := none
    unixMode := props.unixMode }

def ManifestFile.intoBazelFile (file : ManifestFile) : OutputFile where
  contents := file.bytes.getD []
  digest := file.digest.map Digest.toExternalDigest
  isExecutable := file.isExecutable
  path := file.path
  nodeProperties := some {
    mtime := file.modifiedAt.bind createTimestamp
    unixMode := file.unixMode }

def ManifestSymlink.fromBazelSymlink (symlink : OutputSymlink) : ManifestSymlink :=
  let props := symlink.nodeProperties.getD {}
  { modifiedAt := props.mtime.map createFromTimestamp
    path := symlink.path
    target := symlink.target
    unixMode := props.unixMode }

def ManifestSymlink.intoBazelSymlink (symlink : ManifestSymlink) : OutputSymlink where
  path := symlink.path
  target := symlink.target
  nodeProperties := some {
    mtime := symlink.modifiedAt.bind createTimestamp
    unixMode := symlink.unixMode }

def Manifest.fromBazelActionResult (result : ActionResult) : Except HashError Manifest := do
  let metadata := result.executionMetadata.getD {}
  let files ← result.outputFiles.mapM ManifestFile.fromBazelFile
  let stderrDigest ← ExternalDigest.toInternalDigest? result.stderrDigest
  let stdoutDigest ← ExternalDigest.toInternalDigest? result.stdoutDigest
  return {
    files := files
    symlinks := result.outputSymlinks.map ManifestSymlink.fromBazelSymlink
    exitCode := result.exitCode
    stderrBytes := inlined result.stderrRaw
    stderrDigest := stderrDigest
    stdoutBytes := inlined result.stdoutRaw
    stdoutDigest := stdoutDigest
    uploadCompletedAt := metadata.outputUploadCompletedTimestamp.map createFromTimestamp
    uploadStartedAt := metadata.outputUploadStartTimestamp.map createFromTimestamp
    digestSource := none }

/-- Only the daemon is sent the raw output: a remote backend has it in the blobs. -/
def Manifest.intoBazelActionResult (manifest : Manifest) (persistStdio : Bool) : ActionResult where
  outputFiles := manifest.files.map ManifestFile.intoBazelFile
  outputSymlinks := manifest.symlinks.map ManifestSymlink.intoBazelSymlink
  exitCode := manifest.exitCode
  stderrDigest := manifest.stderrDigest.map Digest.toExternalDigest
  stderrRaw := if persistStdio then manifest.stderrBytes.getD [] else []
  stdoutDigest := manifest.stdoutDigest.map Digest.toExternalDigest
  stdoutRaw := if persistStdio then manifest.stdoutBytes.getD [] else []
  executionMetadata := some {
    worker := "moon"
    outputUploadCompletedTimestamp := manifest.uploadCompletedAt.bind createTimestamp
    outputUploadStartTimestamp := manifest.uploadStartedAt.bind createTimestamp }

end Moon
