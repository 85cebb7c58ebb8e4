import Mathlib.Algebra.GroupWithZero.Nat
import Mathlib.Data.List.Sort
import Moon.Manifest

/-!
# Storage backends

A backend is what it answers and what it does to the state `σ` of the world behind it, so it may
fail, answer in part, or share its state with others. Batches complete in any order, and a shutdown
signal ends the loop over their results.
-/

namespace Moon

def asUsize (size : Int) : Nat := (size % 2 ^ 64).toNat

def usizeAdd (a b : Nat) : Nat := (a + b) % 2 ^ 64

structure Batch (α : Type) where
  items : List α
  size : Nat
  stream : Bool
  index : Nat
  total : Nat
deriving DecidableEq

section Batches

variable {α : Type}

/-- What an item costs besides its own size: hash and digest, and metadata. -/
def BUFFER : Nat := 300

/-- Adds an item to the first batch with room for it, or else to a new one. -/
def addToBatch (maxSize itemSize : Nat) (item : α) : List (Batch α) → List (Batch α)
  | [] => [⟨[item], itemSize, false, 0, 0⟩]
  | batch :: batches =>
    if !batch.stream && usizeAdd batch.size itemSize ≤ maxSize then
      { batch with
        size := usizeAdd batch.size itemSize
        items := batch.items ++ [item] } :: batches
    else
      batch :: addToBatch maxSize itemSize item batches

def partitionItem (maxSize : Nat) (getSize : α → Nat) (batches : List (Batch α)) (item : α) :
    List (Batch α) :=
  let itemSize := usizeAdd (getSize item) BUFFER
  if maxSize ≤ itemSize then
    -- too large to share a batch
    batches ++ [⟨[item], itemSize, true, 0, 0⟩]
  else
    addToBatch maxSize itemSize item batches

/-- The loop at the end of both ways to make batches. -/
def numberBatches (batches : List (Batch α)) : List (Batch α) :=
  batches.mapIdx (fun index batch =>
    { batch with index := index + 1, total := batches.length })

def sortBySize (items : List α) (getSize : α → Nat) : List α :=
  items.insertionSort (fun a b => getSize b ≤ getSize a)

/-- First-fit-decreasing. The unstable sort leaves the order of equal sizes open. -/
def partitionIntoBatches (items : List α) (maxSize : Nat) (getSize : α → Nat) : List (Batch α) :=
  numberBatches ((sortBySize items getSize).foldl (partitionItem maxSize getSize) [])

def CHUNK_TARGET_SIZE : Nat := 100

def BLOCKING_THREAD_COUNT : Nat := 512

/-- The `while` loop of `chunk_into_batches`, which takes at least one item each time. -/
def drainChunks (chunkSize : Nat) (getSize : α → Nat) : Nat → List α → List (Batch α)
  | 0, _ => []
  | _ + 1, [] => []
  | fuel + 1, item :: items =>
    let chunk := (item :: items).take chunkSize
    ⟨chunk, (chunk.map getSize).foldl usizeAdd 0, false, 0, 0⟩ ::
      drainChunks chunkSize getSize fuel ((item :: items).drop chunkSize)

def chunkIntoBatches (items : List α) (getSize : α → Nat) : List (Batch α) :=
  let batchCount := min ((items.length + CHUNK_TARGET_SIZE - 1) / CHUNK_TARGET_SIZE)
    BLOCKING_THREAD_COUNT
  let chunkSize := (items.length + batchCount - 1) / batchCount
  numberBatches (drainChunks chunkSize getSize items.length items)

def createBatches (items : List α) (maxSize : Nat) (getSize : α → Nat) : List (Batch α) :=
  if 0 < maxSize then partitionIntoBatches items maxSize getSize
  else chunkIntoBatches items getSize

/-- Whether the search for a batch with room meets a sum that is no `usize`. -/
def addToBatchOverflows (maxSize itemSize : Nat) : List (Batch α) → Bool
  | [] => false
  | batch :: batches =>
    if batch.stream then addToBatchOverflows maxSize itemSize batches
    else if 2 ^ 64 ≤ batch.size + itemSize then true
    else if batch.size + itemSize ≤ maxSize then false
    else addToBatchOverflows maxSize itemSize batches

def partitionOverflows (maxSize : Nat) (getSize : α → Nat) : List (Batch α) → List α → Bool
  | _, [] => false
  | batches, item :: items =>
    let itemSize := getSize item + BUFFER
    if 2 ^ 64 ≤ itemSize then true
    else if itemSize < maxSize && addToBatchOverflows maxSize itemSize batches then true
    else partitionOverflows maxSize getSize (partitionItem maxSize getSize batches item) items

/-- Whether an addition of `create_batches` overflows. Where overflow is checked it panics there,
and otherwise the sum wraps. -/
def createBatchesOverflows (items : List α) (maxSize : Nat) (getSize : α → Nat) : Bool :=
  if 0 < maxSize then partitionOverflows maxSize getSize [] (sortBySize items getSize)
  else (chunkIntoBatches items getSize).any (fun batch => 2 ^ 64 ≤ (batch.items.map getSize).sum)

end Batches

/-- A signal that the loop sees after it took `joined` of the results. Others may have run all the
same, so that `ran` tasks ran altogether. -/
structure Interrupt where
  joined : Nat
  ran : Nat

structure Schedule where
  order : {α : Type} → List α → List α
  order_perm : ∀ {α : Type} (l : List α), (order l).Perm l
  interrupt : Option Interrupt

abbrev Request (σ α : Type) := StateM σ (Except StorageError α)

structure CacheCapabilities where
  maxBatchTotalSizeBytes : Nat := 0
  storeManifests : Bool := true

/-- `dyn StorageBackend`, by what its requests answer and do to the world. -/
structure StorageBackend (σ : Type) where
  id : String
  capabilities : CacheCapabilities
  isReadable : Bool
  isWritable : Bool
  retrieveManifest : Digest → Request σ (Option Manifest)
  storeManifest : Digest → Manifest → Request σ Unit
  findMissingBlobs : List Digest → Request σ (List Digest)
  storeBlobs : List BlobInput → Bool → Request σ (List Digest)
  retrieveBlobs : List Digest → Bool → Request σ Blobs

structure StoreResult where
  digests : List Digest
  storeCount : Nat
  storedCount : Nat
  missingCount : Nat
  success : Bool
deriving DecidableEq

structure RetrieveResult where
  blobs : Blobs
  retrieveCount : Nat
  retrievedCount : Nat
  success : Bool
deriving DecidableEq

section Join

variable {σ α β : Type}

/-- Runs the tasks one after the other, in the order in which they complete. -/
def runBatches (call : Batch α → Request σ β) :
    List (Batch α) → StateM σ (List (Except StorageError β))
  | [] => pure []
  | batch :: batches => do
    let result ← call batch
    let results ← runBatches call batches
    return result :: results

/-- The results that the loop over a `JoinSet` takes, and whether it was aborted. -/
def joinBatches (schedule : Schedule) (call : Batch α → Request σ β)
    (batches : List (Batch α)) : StateM σ (List (Except StorageError β) × Bool) :=
  match schedule.interrupt with
  | none => do
    let results ← runBatches call (schedule.order batches)
    return (results, false)
  | some interrupt => do
    let results ← runBatches call
      ((schedule.order batches).take (max interrupt.joined interrupt.ran))
    return (results.take interrupt.joined, interrupt.joined < batches.length)

def joinedItems (results : List (Except StorageError (List α))) : List α :=
  results.flatMap (fun result =>
    match result with
    | .ok items => items
    | .error _ => [])

def hasErrors (results : List (Except StorageError β)) : Bool :=
  results.any (fun result => !result.isOk)

end Join

namespace StorageBackend

variable {σ : Type}

/-- The loop of `find_missing_blobs_batched`. The first error drops the other tasks. -/
def findMissingInBatches (backend : StorageBackend σ) :
    List (Batch Digest) → StateM σ (Except StorageError (List Digest))
  | [] => pure (.ok [])
  | batch :: batches => do
    match ← backend.findMissingBlobs batch.items with
    | .error error => return .error error
    | .ok missing =>
      match ← findMissingInBatches backend batches with
      | .error error => return .error error
      | .ok rest => return .ok (missing ++ rest)

variable (backend : StorageBackend σ) (schedule : σ → Schedule)

def findMissingBlobsBatched (blobDigests : List Digest) :
    StateM σ (Except StorageError (List Digest)) := do
  let batches := createBatches blobDigests backend.capabilities.maxBatchTotalSizeBytes
    (fun digest => digest.hash.utf8ByteSize)
  backend.findMissingInBatches ((schedule (← get)).order batches)

/-- `blob_inputs.retain(|input| seen.insert(input.digest))`. -/
def retainUnseen : List Digest → List BlobInput → List BlobInput
  | _, [] => []
  | seen, input :: inputs =>
    if input.digest ∈ seen then retainUnseen seen inputs
    else input :: retainUnseen (input.digest :: seen) inputs

def storeMissingBlobs (blobInputs : List BlobInput) (missingDigests : List Digest) :
    StateM σ StoreResult := do
  let missingInputs := blobInputs.filter (fun input => input.digest ∈ missingDigests)
  let batches := createBatches missingInputs backend.capabilities.maxBatchTotalSizeBytes
    (fun input => asUsize input.digest.size)
  let (results, abort) ← joinBatches (schedule (← get))
    (fun batch => backend.storeBlobs batch.items batch.stream) batches
  let uploadedDigests := joinedItems results
  return {
    digests := uploadedDigests
    storeCount := blobInputs.length
    storedCount := uploadedDigests.length
    missingCount := missingDigests.length
    success := !abort && !hasErrors results && uploadedDigests.length == missingDigests.length }

def storeBlobsBatched (inputs : List BlobInput) : StateM σ StoreResult := do
  -- outputs can share identical content
  let blobInputs := retainUnseen [] inputs
  match ← backend.findMissingBlobsBatched schedule (blobInputs.map BlobInput.digest) with
  | .error _ => return ⟨[], blobInputs.length, 0, 0, false⟩
  | .ok [] =>
    return ⟨blobInputs.map BlobInput.digest, blobInputs.length, blobInputs.length, 0, true⟩
  | .ok missingDigests => backend.storeMissingBlobs schedule blobInputs missingDigests

def retrieveBlobsBatched (blobDigests : List Digest) : StateM σ RetrieveResult := do
  let batches := createBatches blobDigests backend.capabilities.maxBatchTotalSizeBytes
    (fun digest => asUsize digest.size)
  let (results, abort) ← joinBatches (schedule (← get))
    (fun batch => backend.retrieveBlobs batch.items batch.stream) batches
  let downloadedBlobs := joinedItems results
  return {
    blobs := downloadedBlobs
    retrieveCount := blobDigests.length
    retrievedCount := downloadedBlobs.length
    success := !abort && !hasErrors results && downloadedBlobs.length == blobDigests.length }

end StorageBackend

end Moon
