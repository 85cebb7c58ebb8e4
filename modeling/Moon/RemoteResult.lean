import Moon.CacheTiers

/-!
# Exchanges with a remote server

An action result is decoded and its blobs are checked, with the panics that casts and sums may end
in. A streamed upload holds one chunk back until it is known whether it is the last one.
-/

namespace Moon

inductive ReceiveError
  | hash (error : HashError)
  | panicked
deriving DecidableEq

/-- `create_from_timestamp` panics where the seconds, with those that the nanos make up, are no
`i64`. -/
def checkTimestamp : Option Timestamp → Except ReceiveError Unit
  | some time =>
    if asUnsigned 64 time.seconds + asUnsigned 32 time.nanos / NANOS_PER_SEC < 2 ^ 63 then .ok ()
    else .error .panicked
  | none => .ok ()

abbrev ResultField := Option ExternalDigest ⊕ Option Timestamp

/-- The digests and times of a result, in the order in which they are decoded. -/
def decodedFields (result : ActionResult) : List ResultField :=
  let metadata := result.executionMetadata.getD {}
  result.outputFiles.flatMap (fun file =>
      [.inl file.digest, .inr (file.nodeProperties.getD {}).mtime]) ++
    result.outputSymlinks.map (fun symlink => .inr (symlink.nodeProperties.getD {}).mtime) ++
    [.inl result.stderrDigest, .inl result.stdoutDigest,
      .inr metadata.outputUploadCompletedTimestamp, .inr metadata.outputUploadStartTimestamp]

def checkField : ResultField → Except ReceiveError Unit
  | .inl digest =>
    ((ExternalDigest.toInternalDigest? digest).mapError .hash).map (fun _ => ())
  | .inr time => checkTimestamp time

/-- `from_bazel_action_result` with its panics. -/
def decodeActionResult (result : ActionResult) : Except ReceiveError Manifest := do
  (decodedFields result).forM checkField
  (Manifest.fromBazelActionResult result).mapError .hash

/-- Asks for the blobs that a decoded result misses and checks those that the server responds
with. -/
def receiveBlobs (sha256 : Bytes → String) (maxSize : Nat)
    (response : Batch Digest → List (Digest × Bytes)) (result : ActionResult) :
    Except ReceiveError Blobs := do
  let manifest ← decodeActionResult result
  let digests := manifest.collectUnhydratedBlobDigests
  let size := fun digest : Digest => asUsize digest.size
  if createBatchesOverflows digests maxSize size then .error .panicked
  else
    .ok ((createBatches digests maxSize size).flatMap
      (fun batch => verifiedBlobs sha256 (response batch)))

structure WriteRequest where
  resourceName : String
  writeOffset : Int
  finishWrite : Bool
  data : Bytes
deriving DecidableEq

/-- The body of the stream from its loop on. The offset is an `i64`, and no blob is as long as
that. -/
def uploadChunks {E : Type} (name : String) (offset : Int) (pending : Option Bytes) :
    List (Except E Bytes) → List WriteRequest × Option E
  | [] => ([⟨name, offset, true, pending.getD []⟩], none)
  | .error error :: _ => ([], some error)
  | .ok chunk :: results =>
    match pending with
    | none => uploadChunks name offset (some chunk) results
    | some data =>
      -- the name is taken by the first request
      let rest := uploadChunks "" (offset + data.length) (some chunk) results
      (⟨name, offset, false, data⟩ :: rest.1, rest.2)

def uploadStream {E : Type} (resourceName : String) (results : List (Except E Bytes)) :
    List WriteRequest × Option E :=
  uploadChunks resourceName 0 none results

end Moon
