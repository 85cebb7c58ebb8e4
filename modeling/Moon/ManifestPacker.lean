import Moon.Manifest

/-!
# Packing manifests

`ManifestPacker`, as `create_cache_manifest` drives it: the outputs of a task are digested
where they are on disk, and the captured output of the process is digested from memory.
-/

namespace Moon

def dropShared : List Component → List Component → List Component × List Component
  | left :: lefts, right :: rights =>
    if left = right then dropShared lefts rights else (left :: lefts, right :: rights)
  | lefts, rights => (lefts, rights)

/-- `relative_to` of two absolute paths. A path relative to itself is the empty text. -/
def PathBuf.relativeTo (path base : PathBuf) : WorkspaceRelativePath :=
  let rest := dropShared path.components base.components
  match List.replicate rest.2.length ".." ++ rest.1.map Component.asStr with
  | [] => ⟨[""]⟩
  | segments => ⟨segments⟩

structure FileMetadata where
  modified : Option SystemTime
  mode : Nat
deriving DecidableEq

/-- What the packer reads from the file system. All but `readLink` follow symlinks. -/
structure PackFs where
  readLink : PathBuf → Option PathBuf
  metadata : PathBuf → Option FileMetadata
  content : PathBuf → Option Bytes
  isDir : PathBuf → Bool
  walkFiles : PathBuf → List PathBuf
  pathExists : PathBuf → Bool

/-- The captured output of a process, which is only kept if it is not empty. -/
abbrev CapturedOutput := { output : Bytes // output ≠ [] }

structure ExecOutput where
  exitCode : Option Int
  stderr : Option CapturedOutput
  stdout : Option CapturedOutput

/-- On Unix. -/
def FileMetadata.isExecutable (metadata : FileMetadata) : Bool := metadata.mode &&& 0o111 != 0

section Pack

variable (sha256 : Bytes → String)

def Digest.fromBytes (bytes : Bytes) : Digest := ⟨sha256 bytes, bytes.length⟩

structure ManifestPacker where
  manifest : Manifest
  workspaceRoot : WorkspaceRoot

namespace ManifestPacker

def new (workspaceRoot : WorkspaceRoot) : ManifestPacker := ⟨{}, workspaceRoot⟩

def pack (packer : ManifestPacker) : Manifest := packer.manifest

def resolveRelPath (packer : ManifestPacker) (absPath : PathBuf) : WorkspaceRelativePath :=
  absPath.relativeTo packer.workspaceRoot.path

section

variable (fs : PackFs) (packer : ManifestPacker)

def insertFile (absPath : PathBuf) :
    Except ManifestError ManifestPacker :=
  match fs.metadata absPath, fs.content absPath with
  | some metadata, some content =>
    .ok { packer with
      manifest := { packer.manifest with
        files := packer.manifest.files ++ [{
          bytes := none
          digest := some (Digest.fromBytes sha256 content)
          isExecutable := metadata.isExecutable
          modifiedAt := metadata.modified
          path := packer.resolveRelPath absPath
          sourcePath := some absPath
          unixMode := some metadata.mode }] } }
  | _, _ => .error (.fs absPath)

def insertDir (absPath : PathBuf) :
    Except ManifestError ManifestPacker :=
  (fs.walkFiles absPath).foldlM (fun packer file => packer.insertFile sha256 fs file) packer

def insertSymlink (absPath link : PathBuf) :
    Except ManifestError ManifestPacker :=
  if !link.startsWith packer.workspaceRoot.path then
    .error (.outputSymlinkOutsideOfWorkspace absPath link.rawText)
  else
    match fs.metadata absPath with
    | none => .error (.fs absPath)
    | some metadata =>
      .ok { packer with
        manifest := { packer.manifest with
          symlinks := packer.manifest.symlinks ++ [{
            modifiedAt := metadata.modified
            path := packer.resolveRelPath absPath
            target := packer.resolveRelPath link
            unixMode := some metadata.mode }] } }

/-- An output that does not exist is left out. -/
def inheritOutput (absPath : PathBuf) :
    Except ManifestError ManifestPacker :=
  if !absPath.startsWith packer.workspaceRoot.path then
    .error (.outputFileOutsideOfWorkspace absPath)
  else
    match fs.readLink absPath with
    | some link => packer.insertSymlink fs absPath link
    | none =>
      if (fs.content absPath).isSome then packer.insertFile sha256 fs absPath
      else if fs.isDir absPath then packer.insertDir sha256 fs absPath
      else .ok packer

end

def inheritOperation (packer : ManifestPacker) (exec : Option ExecOutput) : ManifestPacker :=
  match exec with
  | none => packer
  | some exec =>
    { packer with
      manifest := { packer.manifest with
        exitCode := exec.exitCode.getD 0
        stderrDigest := (exec.stderr.map (fun stderr => Digest.fromBytes sha256 stderr)).or
          packer.manifest.stderrDigest
        stderrBytes := (exec.stderr.map Subtype.val).or packer.manifest.stderrBytes
        stdoutDigest := (exec.stdout.map (fun stdout => Digest.fromBytes sha256 stdout)).or
          packer.manifest.stdoutDigest
        stdoutBytes := (exec.stdout.map Subtype.val).or packer.manifest.stdoutBytes } }

def inheritSource (fs : PackFs) (packer : ManifestPacker) (digest : Digest) (path : PathBuf) :
    ManifestPacker :=
  if fs.pathExists path then
    { packer with
      manifest := { packer.manifest with
        digestSource := some {
          digest := some digest
          path := packer.resolveRelPath path
          sourcePath := some path } } }
  else
    packer

end ManifestPacker

def createCacheManifest (fs : PackFs) (workspaceRoot : WorkspaceRoot) (outputs : List PathBuf)
    (exec : Option ExecOutput) (digest : Digest) (source : PathBuf) :
    Except ManifestError Manifest := do
  let packer ← outputs.foldlM (fun packer output => packer.inheritOutput sha256 fs output)
    (ManifestPacker.new workspaceRoot)
  return ((packer.inheritOperation sha256 exec).inheritSource fs digest source).pack

end Pack

end Moon
