import Moon.LocalStorage

/-!
# Garbage collection of the local storage

`LocalStorage::gc` evicts stale manifests, then sweeps the blobs that none of the others refers
to.
-/

namespace Moon

/-- How long an unreferenced blob is spared, in nanoseconds. -/
def BLOB_GRACE : Nat := 3600 * 10 ^ 9

def ageOf (now modified : SystemTime) : Nat := (now - modified).toNat

structure ManifestEntry where
  hash : String
  modified : SystemTime
  digests : List Digest
deriving DecidableEq

/-- What collecting keeps, from the newest manifest on. -/
structure Eviction where
  keep : Finset String := ∅
  keepSize : Nat := 0
  evicted : List String := []

namespace Eviction

def retainDigest (eviction : Eviction) (digest : Digest) : Eviction :=
  if digest.hash ∈ eviction.keep then eviction
  else
    { eviction with
      keep := insert digest.hash eviction.keep
      keepSize := usizeAdd eviction.keepSize digest.size.toNat }

def marginal (eviction : Eviction) (entry : ManifestEntry) : Nat :=
  ((entry.digests.filter (fun digest => digest.hash ∉ eviction.keep)).map
    (fun digest => digest.size.toNat)).foldl usizeAdd 0

def visit (now : SystemTime) (lifetime : Nat) (maxSize : Option Nat) (eviction : Eviction)
    (entry : ManifestEntry) : Eviction :=
  let overLifetime := lifetime < ageOf now entry.modified
  let overBudget := maxSize.any (fun max =>
    max < usizeAdd eviction.keepSize (eviction.marginal entry))
  if overLifetime || overBudget then
    { eviction with evicted := eviction.evicted ++ [entry.hash] }
  else
    entry.digests.foldl retainDigest eviction

end Eviction

/-- The decisions of `evict_manifests`, newest entries first. -/
def evictManifests (now : SystemTime) (lifetime : Nat) (maxSize : Option Nat)
    (entries : List ManifestEntry) : Eviction :=
  (entries.insertionSort (fun a b => b.modified ≤ a.modified)).foldl
    (Eviction.visit now lifetime maxSize) {}

inductive CollectionPhase
  /-- Reading the manifests, where `owed` is what is left of the paths that were listed. -/
  | listing (owed : Finset String) (entries : List ManifestEntry)
  | evicting (keep : Finset String) (evicted : List String)
  /-- The sweep that started at `now`, with what was examined and is going to be removed. -/
  | sweeping (keep : Finset String) (now : SystemTime) (doomed : List (String × SystemTime))
  | ended

structure Collection where
  lifetime : Nat
  maxSize : Option Nat
  now : SystemTime
  /-- The uploads that had come to their end before the manifests were listed. -/
  settled : Nat → Bool
  phase : CollectionPhase

inductive CollectionEvent
  | read (hash : String)
  | listed
  | evict (hash : String)
  | sweep
  | examine (hash : String)
  | remove (hash : String) (modified : SystemTime)
  | finish
deriving DecidableEq

namespace Collection

def start (disk : LocalDisk) (lifetime : Nat) (maxSize : Option Nat) (settled : Nat → Bool) :
    Collection where
  lifetime := lifetime
  maxSize := maxSize
  now := disk.now
  settled := settled
  phase := .listing disk.manifests.keys []

def entryOf (disk : LocalDisk) (hash : String) : Option ManifestEntry :=
  match disk.manifests.lookup hash with
  | some ⟨.json manifest, modified⟩ => some ⟨hash, modified, manifest.collectBlobDigests⟩
  | _ => none

/-- One step of a collection. Files may appear while a directory is listed, so any manifest may be
read, and those that were there have to be. The shards are swept in any order, and an error ends the
collection. -/
def step (disk : LocalDisk) (collection : Collection) :
    CollectionEvent → Option (LocalDisk × Collection)
  | .read hash =>
    match collection.phase with
    | .listing owed entries =>
      some (disk, { collection with
        phase := .listing (owed.erase hash) (entries ++ (entryOf disk hash).toList) })
    | _ => none
  | .listed =>
    match collection.phase with
    | .listing owed entries =>
      if owed = ∅ then
        let eviction := evictManifests collection.now collection.lifetime collection.maxSize entries
        some (disk, { collection with phase := .evicting eviction.keep eviction.evicted })
      else none
    | _ => none
  | .evict hash =>
    match collection.phase with
    | .evicting keep evicted =>
      if hash ∈ evicted then
        some ({ disk with manifests := disk.manifests.erase hash },
          { collection with phase := .evicting keep (evicted.erase hash) })
      else none
    | _ => none
  | .sweep =>
    match collection.phase with
    | .evicting keep [] => some (disk, { collection with phase := .sweeping keep disk.now [] })
    | _ => none
  | .examine hash =>
    match collection.phase, disk.blobs.lookup hash with
    | .sweeping keep now doomed, some object =>
      if hash ∉ keep ∧ BLOB_GRACE < ageOf now object.modified then
        some (disk, { collection with
          phase := .sweeping keep now ((hash, object.modified) :: doomed) })
      else none
    | _, _ => none
  | .remove hash modified =>
    match collection.phase with
    | .sweeping keep now doomed =>
      if (hash, modified) ∈ doomed then
        some ({ disk with blobs := disk.blobs.erase hash },
          { collection with phase := .sweeping keep now (doomed.erase (hash, modified)) })
      else none
    | _ => none
  | .finish => some (disk, { collection with phase := .ended })

end Collection

/-- `retain` over the blobs, with the times they were modified at. -/
def retain (keep : Finset String) (now : SystemTime) (blobs : List (String × SystemTime)) :
    List (String × SystemTime) :=
  blobs.filter (fun blob => blob.1 ∈ keep ∨ ageOf now blob.2 ≤ BLOB_GRACE)

end Moon
