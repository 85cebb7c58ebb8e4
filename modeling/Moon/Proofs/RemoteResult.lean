import Mathlib.Data.List.TakeWhile
import Moon.Proofs.Batches
import Moon.RemoteResult

/-! # Whatever a server sends or is sent -/

namespace Moon.Proofs

open List Lib Manifest ExternalDigest

variable {α β : Type}

/-- A time whose seconds are an `i64`, also with those that the nanos make up. -/
def TimeFits (field : ResultField) : Prop :=
  ∀ time, field = .inr (some time) →
    asUnsigned 64 time.seconds + asUnsigned 32 time.nanos / NANOS_PER_SEC < 2 ^ 63

def digestAccepted : ResultField → Bool
  | .inl digest => (ExternalDigest.toInternalDigest? digest).isOk
  | .inr _ => true

/-- The times that are read before a digest is refused. -/
def TimesFit (result : ActionResult) : Prop :=
  ∀ field ∈ (decodedFields result).takeWhile digestAccepted, TimeFits field

/-- The sums that batching a list of digests takes. One size and its overhead always fit, and so do
the sums of a limit that was sent as a size. Under a larger limit, the largest digests come first,
and each one is added to the batches so far up to one with room for it. -/
structure SumsFit (maxSize : Nat) (digests : List Digest) : Prop where
  chunks : maxSize = 0 → ∀ batch ∈ chunkIntoBatches digests (fun digest => asUsize digest.size),
      (batch.items.map (fun digest => asUsize digest.size)).sum < 2 ^ 64
  single : 0 < maxSize → ∀ digest ∈ digests, asUsize digest.size + BUFFER < 2 ^ 64
  packing : 2 ^ 63 < maxSize → ∀ before digest after,
    sortBySize digests (fun digest => asUsize digest.size) = before ++ digest :: after →
    asUsize digest.size + BUFFER < maxSize → ∀ passed batch rest,
      before.foldl (partitionItem maxSize (fun digest => asUsize digest.size)) [] =
        passed ++ batch :: rest → batch.stream = false →
      (∀ other ∈ passed, other.stream = true ∨
        maxSize < other.size + (asUsize digest.size + BUFFER)) →
      batch.size + (asUsize digest.size + BUFFER) < 2 ^ 64

variable {field : ResultField} {r : ActionResult} {m : Manifest}

lemma checkField_refused (h : digestAccepted field = false) :
    ∃ e, checkField field = .error (.hash e) := by
  cases field with
  | inr time => cases h
  | inl digest =>
    rw [digestAccepted] at h
    rw [checkField]
    cases hd : toInternalDigest? digest with
    | error e => exact ⟨e, rfl⟩
    | ok decoded =>
      rw [hd] at h
      cases h

lemma checkField_accepted (h : digestAccepted field) :
    checkField field = .ok () ∧ TimeFits field ∨
      checkField field = .error .panicked ∧ ¬ TimeFits field := by
  cases field with
  | inl digest =>
    rw [digestAccepted] at h
    rw [checkField]
    cases hd : toInternalDigest? digest with
    | error e =>
      rw [hd] at h
      cases h
    | ok decoded => exact .inl ⟨rfl, fun _ he => by cases he⟩
  | inr time =>
    cases time with
    | none => exact .inl ⟨rfl, fun _ he => by cases he⟩
    | some time =>
      rw [checkField, checkTimestamp]
      split_ifs with ht
      · exact .inl ⟨rfl, fun _ he => by cases he; exact ht⟩
      · exact .inr ⟨rfl, fun hf => ht (hf time rfl)⟩

lemma forM_checkField_ne_panicked (fields : List ResultField) :
    fields.forM checkField ≠ .error .panicked ↔
      ∀ field ∈ fields.takeWhile digestAccepted, TimeFits field := by
  induction fields with
  | nil => exact ⟨fun _ _ h => absurd h not_mem_nil, fun _ => nofun⟩
  | cons field fields ih =>
    rw [show (field :: fields).forM checkField =
      (checkField field >>= fun _ => fields.forM checkField) from rfl]
    cases ha : digestAccepted field with
    | false =>
      obtain ⟨e, he⟩ := checkField_refused ha
      rw [he, takeWhile_cons_of_neg (by simp [ha])]
      exact ⟨fun _ _ h => absurd h not_mem_nil, fun _ => nofun⟩
    | true =>
      rw [takeWhile_cons_of_pos ha, forall_mem_cons]
      rcases checkField_accepted ha with ⟨hc, hf⟩ | ⟨hc, hn⟩
      · rw [hc]
        exact ih.trans ⟨fun h => ⟨hf, h⟩, fun h => h.2⟩
      · rw [hc]
        exact ⟨fun h => absurd rfl h, fun h => absurd h.1 hn⟩

lemma accepted_of_decoded (h : fromBazelActionResult r = .ok m) :
    ∀ field ∈ decodedFields r, digestAccepted field := by
  obtain ⟨files, hf, h⟩ := bind_eq_ok h
  obtain ⟨stderr, he, h⟩ := bind_eq_ok h
  obtain ⟨stdout, ho, -⟩ := bind_eq_ok h
  intro field hm
  rcases mem_append.mp hm with hm | hm
  · rcases mem_append.mp hm with hm | hm
    · obtain ⟨file, hfile, hm⟩ := mem_flatMap.mp hm
      obtain ⟨decoded, hd, -⟩ := mapM_eq_ok_mem hf hfile
      obtain ⟨digest, hd, -⟩ := bind_eq_ok hd
      rcases mem_pair.mp hm with rfl | rfl
      · rw [digestAccepted, hd]
        rfl
      · rfl
    · obtain ⟨symlink, -, rfl⟩ := mem_map.mp hm
      rfl
  · simp only [mem_cons, not_mem_nil, or_false] at hm
    rcases hm with rfl | rfl | rfl | rfl
    · rw [digestAccepted, he]
      rfl
    · rw [digestAccepted, ho]
      rfl
    · rfl
    · rfl

lemma bind_ne_error {ε : Type} {x : Except ε α} {f : α → Except ε β} {e : ε} :
    (x >>= f) ≠ .error e ↔ x ≠ .error e ∧ ∀ a, x = .ok a → f a ≠ .error e := by
  cases x with
  | error e' =>
    exact ⟨fun h => ⟨fun he => h (by cases he; rfl), nofun⟩, fun h he => h.1 (by cases he; rfl)⟩
  | ok a =>
    refine ⟨fun h => ⟨nofun, fun b hb => ?_⟩, fun h => h.2 a rfl⟩
    cases hb
    exact h

lemma decodeActionResult_ne_panicked : decodeActionResult r ≠ .error .panicked ↔ TimesFit r := by
  rw [decodeActionResult, bind_ne_error, forM_checkField_ne_panicked]
  refine and_iff_left (fun _ _ => ?_)
  cases fromBazelActionResult r <;> nofun

lemma decodeActionResult_eq_ok (hr : TimesFit r) :
    decodeActionResult r = .ok m ↔ fromBazelActionResult r = .ok m := by
  constructor
  · intro h
    obtain ⟨_, -, h⟩ := bind_eq_ok h
    cases hm : fromBazelActionResult r with
    | error e =>
      rw [hm] at h
      cases h
    | ok decoded =>
      rw [hm] at h
      cases h
      rfl
  · intro h
    have ha := accepted_of_decoded h
    rw [TimesFit, takeWhile_eq_self_iff.mpr ha] at hr
    have hc : (decodedFields r).forM checkField = .ok () := forM_eq_ok.mpr (fun field hm =>
      ((checkField_accepted (ha field hm)).resolve_right (fun hn => hn.2 (hr field hm))).1)
    rw [decodeActionResult, hc, h]
    rfl

lemma createBatchesOverflows_sums {n : Nat} {ds : List Digest} :
    createBatchesOverflows ds n (fun d => asUsize d.size) = false ↔ SumsFit n ds := by
  rw [createBatchesOverflows_iff]
  simp only [partitionOverflows_iff, addToBatchOverflows_iff]
  constructor
  · rintro ⟨hc, hs, hp⟩
    exact ⟨hc, hs, fun hn before d after hd => (hp hn before d after hd).2⟩
  · intro h
    refine ⟨h.chunks, h.single, fun hn before d after hd => ⟨?_, h.packing hn before d after hd⟩⟩
    exact h.single (by omega) d (mem_sortBySize.mp (hd ▸ mem_append_right before mem_cons_self))

/-- A panic is avoided exactly where the times and the sums fit, whatever blobs are sent. -/
theorem receives_without_panic_iff (sha256 : Bytes → String) (maxSize : Nat)
    (response : Batch Digest → List (Digest × Bytes)) (result : ActionResult) :
    receiveBlobs sha256 maxSize response result ≠ .error .panicked ↔
      TimesFit result ∧ ∀ manifest, fromBazelActionResult result = .ok manifest →
        SumsFit maxSize manifest.collectUnhydratedBlobDigests := by
  rw [receiveBlobs, bind_ne_error, decodeActionResult_ne_panicked]
  refine and_congr_right (fun hr => forall_congr' (fun manifest => ?_))
  rw [decodeActionResult_eq_ok hr]
  refine imp_congr_right (fun _ => ?_)
  rw [← createBatchesOverflows_sums]
  dsimp only
  split_ifs with ho
  · simp [ho]
  · simp [ho]

/-- One second before the epoch is no `SystemTime` once it is cast, and three blobs of the largest
size are more than a `usize` counts. -/
theorem server_makes_receiving_panic : receiveBlobs (fun _ => "") 0 (fun _ => [])
        { executionMetadata := some { outputUploadStartTimestamp := some ⟨-1, 0⟩ } } =
      .error .panicked ∧
      createBatchesOverflows (replicate 3 (⟨"", 2 ^ 63 - 1⟩ : Digest)) 0
        (fun d => asUsize d.size) = true :=
  ⟨by decide, by decide⟩

variable {E : Type} {n : String} {o : Int} {content d : Bytes} {sent : List WriteRequest}

/-- Requests that carry a content from an offset on: each begins where the last one ends, the first
one has the name, and the last one finishes. -/
structure Framed (name : String) (offset : Int) (content : Bytes) (sent : List WriteRequest) :
    Prop where
  sent_ne : sent ≠ []
  content_eq : sent.flatMap WriteRequest.data = content
  each : ∀ before request after, sent = before ++ request :: after →
    request.writeOffset = offset + (before.flatMap WriteRequest.data).length ∧
      request.resourceName = (if before = [] then name else "") ∧
      (request.finishWrite = true ↔ after = [])

lemma framed_last : Framed n o d [⟨n, o, true, d⟩] where
  sent_ne := nofun
  content_eq := by simp
  each := by
    intro b r after h
    obtain ⟨rfl, rfl, rfl⟩ : b = [] ∧ r = ⟨n, o, true, d⟩ ∧ after = [] := by
      cases b with
      | nil =>
        cases h
        exact ⟨rfl, rfl, rfl⟩
      | cons first b =>
        have hn := (cons.inj h).2
        simp at hn
    simp

lemma Framed.cons (h : Framed "" (o + d.length) content sent) :
    Framed n o (d ++ content) (⟨n, o, false, d⟩ :: sent) where
  sent_ne := nofun
  content_eq := by simp [h.content_eq]
  each := by
    intro b r after he
    cases b with
    | nil =>
      obtain ⟨rfl, rfl⟩ := cons.inj he
      simpa using h.sent_ne
    | cons first b =>
      obtain ⟨rfl, ht⟩ := cons.inj he
      obtain ⟨ho, hn, hf⟩ := h.each b r after ht
      refine ⟨?_, by simpa using hn, hf⟩
      rw [ho, flatMap_cons, length_append]
      push_cast
      omega

lemma uploadChunks_framed (n : String) (o : Int) (p : Option Bytes)
    (cs : List Bytes) : Framed n o (p.getD [] ++ cs.flatten)
      (uploadChunks n o p (cs.map (.ok : Bytes → Except E Bytes))).1 := by
  induction cs generalizing n o p with
  | nil => simpa [uploadChunks] using framed_last
  | cons c cs ih =>
    cases p with
    | none => simpa [uploadChunks] using ih n o (some c)
    | some d => exact (ih "" (o + d.length) (some c)).cons

/-- After a failed read nothing is sent, so the requests before it are all there are. -/
lemma uploadChunks_unfinished {e : E} {rest : List (Except E Bytes)} (n : String)
    (o : Int) (p : Option Bytes) (cs : List Bytes) :
    let s := uploadChunks n o p (cs.map .ok ++ .error e :: rest)
    s.2 = some e ∧ ∀ r ∈ s.1, r.finishWrite = false := by
  induction cs generalizing n o p with
  | nil => exact ⟨rfl, nofun⟩
  | cons c cs ih =>
    cases p with
    | none => exact ih n o (some c)
    | some d =>
      obtain ⟨he, hr⟩ := ih "" (o + d.length) (some c)
      exact ⟨he, forall_mem_cons.mpr ⟨rfl, hr⟩⟩

/-- An upload that reads to the end is framed, and one that fails never finishes. -/
theorem upload_framed (E : Type) (resourceName : String) (chunks : List Bytes) :
    Framed resourceName 0 chunks.flatten
        (uploadStream (E := E) resourceName (chunks.map .ok)).1 ∧
      ∀ (e : E) (rest : List (Except E Bytes)),
        (uploadStream resourceName (chunks.map .ok ++ .error e :: rest)).2 = some e ∧
        ∀ r ∈ (uploadStream resourceName (chunks.map .ok ++ .error e :: rest)).1,
          r.finishWrite = false :=
  ⟨uploadChunks_framed resourceName 0 none chunks,
    fun _ _ => uploadChunks_unfinished resourceName 0 none chunks⟩

example : (uploadStream (E := Unit) "blobs/a" [.ok [1, 2], .ok [3]]).1 =
    [⟨"blobs/a", 0, false, [1, 2]⟩, ⟨"", 2, true, [3]⟩] := by
  decide

end Moon.Proofs
