import Moon.ActionResult
import Moon.CacheProcesses
import Moon.ManifestPacker

/-!
# The caches of a workspace

Outputs are archived, directly or by the daemon, manifests are filled with the blobs of either
storage, and one of a remote hit is stored locally for the next run.
-/

namespace Moon

structure CacheHit where
  digest : Digest
  manifest : Manifest
  remote : Bool
  copies : List BlobInput := []
deriving DecidableEq

structure TierState where
  cache : CacheState
  hits : Nat → Option CacheHit

/-- Steps of a cache with remote servers. -/
inductive TierEvent
  | cache (event : CacheEvent)
  /-- Packs the outputs as the packer finds them, under the digest of the fingerprint. -/
  | archive (id : Nat) (fs : PackFs) (outputs : List PathBuf) (exec : Option ExecOutput)
      (fingerprint : Bytes) (source : PathBuf) (daemon : Bool)
  | loadRemote (hit : Nat) (digest : Digest) (result : ActionResult)
  | loadLocal (hit : Nat) (digest : Digest)
  /-- A remote server answers a request for the blobs of a manifest. -/
  | receive (hit : Nat) (response : List (Digest × Bytes))
  | receiveLocal (hit : Nat)
  | copy (hit : Nat) (input : BlobInput)
  | warm (hit : Nat) (id : Nat)

section Remote

variable (sha256 : Bytes → String)

def checkBlobIntegrity (expectedDigest : Digest) (bytes : Bytes) : Bool :=
  (bytes.length : Int) = asUnsigned 64 expectedDigest.size &&
    Digest.fromBytes sha256 bytes = expectedDigest

/-- `retrieve_blobs` of a remote storage: what passes the check of the server's response. -/
def verifiedBlobs (response : List (Digest × Bytes)) : Blobs :=
  (response.filter (fun blob => checkBlobIntegrity sha256 blob.1 blob.2)).map (fun blob =>
    (blob.1, .inline blob.2))

end Remote

namespace TierState

variable (sha256 : Bytes → String) (manifestHash : StoredManifest → String)
  (storage : LocalStorage) (workspaceRoot : WorkspaceRoot) (writeTime : Nat)

def idle (disk : LocalDisk) : TierState := ⟨CacheState.idle disk, fun _ => none⟩

def setHit (s : TierState) (id : Nat) (hit : CacheHit) : TierState :=
  { s with hits := Function.update s.hits id (some hit) }

def startUpload (s : TierState) (id : Nat) (digest : Digest) (manifest : Manifest) :
    Option TierState := do
  let cache ← s.cache.step storage workspaceRoot writeTime (.startUpload id digest manifest)
  return { s with cache := cache }

/-- The manifest that is archived: the packed one, or what the daemon decodes of it. -/
def sent (daemon : Bool) (manifest : Manifest) : Option Manifest :=
  if daemon then
    (Manifest.fromBazelActionResult (manifest.intoBazelActionResult true)).toOption
  else some manifest

def step (s : TierState) : TierEvent → Option TierState
  | .cache (.startUpload _ _ _) => none
  | .cache event => do
    let cache ← s.cache.step storage workspaceRoot writeTime event
    return { s with cache := cache }
  | .archive id fs outputs exec fingerprint source daemon => do
    let digest := Digest.fromBytes sha256 fingerprint
    let packed ←
      (createCacheManifest sha256 fs workspaceRoot outputs exec digest source).toOption
    let manifest ← sent daemon packed
    s.startUpload storage workspaceRoot writeTime id digest manifest
  | .loadRemote id digest result => do
    let manifest ← (Manifest.fromBazelActionResult result).toOption
    return s.setHit id { digest := digest, manifest := manifest, remote := true }
  | .loadLocal id digest =>
    match (storage.retrieveManifest manifestHash digest).run s.cache.disk with
    | (.ok (some manifest), disk) =>
      some (({ s with cache := { s.cache with disk := disk } } : TierState).setHit id
        { digest := digest, manifest := manifest, remote := false })
    | _ => none
  | .receive id response => do
    let hit ← s.hits id
    let blobs := verifiedBlobs sha256 response
    let manifest ←
      (hit.manifest.hydrate (storage.readFileBytes s.cache.disk) blobs).toOption
    -- a blob that the local storage misses is copied to it
    let copies := if hit.remote then []
      else copiedInputs hit.manifest.collectUnhydratedBlobDigests blobs
    return s.setHit id { hit with manifest := manifest, copies := hit.copies ++ copies }
  | .receiveLocal id => do
    let hit ← s.hits id
    let blobs ← ((storage.retrieveBlobs hit.manifest.collectUnhydratedBlobDigests).run
      s.cache.disk).1.toOption
    let manifest ←
      (hit.manifest.hydrate (storage.readFileBytes s.cache.disk) blobs).toOption
    return s.setHit id { hit with manifest := manifest }
  | .copy id input => do
    let hit ← s.hits id
    if input ∈ hit.copies then
      let bytes ← (input.content.readBytes (storage.readFileBytes s.cache.disk)).toOption
      let disk := { s.cache.disk with
        blobs := s.cache.disk.blobs.write input.digest.hash bytes s.cache.disk.now }
      return ({ s with cache := { s.cache with disk := disk } } : TierState).setHit id
        { hit with copies := hit.copies.erase input }
    else none
  | .warm id upload => do
    let hit ← s.hits id
    if hit.remote && hit.manifest.isHydrated then
      s.startUpload storage workspaceRoot writeTime upload hit.digest hit.manifest
    else none

end TierState

end Moon
