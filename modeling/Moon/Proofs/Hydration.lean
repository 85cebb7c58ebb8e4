import Moon.Proofs.Storage

/-!
# Hydration over several backends

Hydrating from one backend after the other fills a manifest as if all of them were one backend,
in which the first that holds a blob wins.
-/

namespace Moon.Proofs
open Lib List Manifest

/-- The file with the content that is found for it. -/
def carried (lookup : Digest → Option BlobContent) (file : ManifestFile) : ManifestFile :=
  if file.bytes.isSome || file.sourcePath.isSome then file
  else
    match file.digest.bind lookup with
    | some (.file p) => { file with sourcePath := some p }
    | some (.inline bytes) => { file with bytes := some bytes }
    | none => file

structure Filled (lookup : Digest → Option BlobContent) (manifest filled : Manifest) : Prop where
  files : filled.files = manifest.files.map (carried lookup)
  stderrDigest : filled.stderrDigest = manifest.stderrDigest
  stderrBytes : filled.stderrBytes.isSome =
    (manifest.stderrBytes.isSome || (manifest.stderrDigest.bind lookup).isSome)
  stdoutDigest : filled.stdoutDigest = manifest.stdoutDigest
  stdoutBytes : filled.stdoutBytes.isSome =
    (manifest.stdoutBytes.isSome || (manifest.stdoutDigest.bind lookup).isSome)

/-- A blob that the manifest does not carry yet. -/
def Needed (manifest : Manifest) (digest : Digest) : Prop :=
  0 < digest.size ∧ (manifest.stderrBytes = none ∧ manifest.stderrDigest = some digest ∨
      manifest.stdoutBytes = none ∧ manifest.stdoutDigest = some digest ∨
      ∃ file ∈ manifest.files, file.bytes = none ∧ file.sourcePath = none ∧
        file.digest = some digest)

/-- The manifest names the blob. -/
def Referenced (manifest : Manifest) (digest : Digest) : Prop :=
  manifest.stderrDigest = some digest ∨ manifest.stdoutDigest = some digest ∨
    ∃ file ∈ manifest.files, file.digest = some digest

variable {digest : Option Digest} {bytes : Option Bytes} {m : Manifest}

section

variable {f g : Digest → Option BlobContent}

variable {file : ManifestFile}

lemma carried_congr
    (h : ∀ digest, file.bytes = none → file.sourcePath = none → file.digest = some digest →
      f digest = g digest) : carried f file = carried g file := by
  unfold carried
  by_cases hh : (file.bytes.isSome || file.sourcePath.isSome)
  · rw [if_pos hh, if_pos hh]
  · rw [if_neg hh, if_neg hh]
    simp only [Bool.or_eq_true, not_or, Option.not_isSome_iff_eq_none] at hh
    cases hd : file.digest with
    | none => rfl
    | some digest =>
      have heq := h digest hh.1 hh.2 hd
      simp only [Option.bind_some, heq]

lemma carried_none (file : ManifestFile) : carried (fun _ => none) file = file := by
  unfold carried
  cases file.digest <;> simp

lemma carried_same (f : Digest → Option BlobContent) (file : ManifestFile) :
    (carried f file).path = file.path ∧ (carried f file).digest = file.digest := by
  unfold carried
  split
  · exact ⟨rfl, rfl⟩
  · split <;> exact ⟨rfl, rfl⟩

lemma Filled.refl (m : Manifest) : Filled (fun _ => none) m m where
  files := by
    rw [show (carried fun _ => none) = id from funext carried_none, map_id]
  stderrDigest := rfl
  stderrBytes := by cases m.stderrDigest <;> simp
  stdoutDigest := rfl
  stdoutBytes := by cases m.stdoutDigest <;> simp

lemma isSome_bind_or (digest : Option Digest) :
    ((digest.bind f).isSome || (digest.bind g).isSome) =
      (digest.bind (fun digest => (f digest).or (g digest))).isSome := by
  cases digest with
  | none => rfl
  | some digest => cases hf : f digest <;> simp [hf]

lemma Filled.trans {mi filled : Manifest} (hf : Filled f m mi) (hg : Filled g mi filled) :
    Filled (fun digest => (f digest).or (g digest)) m filled where
  files := by
    rw [hg.files, hf.files, map_map]
    refine map_congr_left (fun file _ => ?_)
    by_cases hh : (file.bytes.isSome || file.sourcePath.isSome)
    · simp [carried, hh]
    · cases hd : file.digest with
      | none => simp [carried, hh, hd]
      | some digest =>
        cases hf : f digest with
        | none => simp [carried, hh, hd, hf]
        | some content => cases content <;> simp [carried, hh, hd, hf]
  stderrDigest := hg.stderrDigest.trans hf.stderrDigest
  stderrBytes := by
    rw [hg.stderrBytes, hf.stderrBytes, hf.stderrDigest, Bool.or_assoc, isSome_bind_or]
  stdoutDigest := hg.stdoutDigest.trans hf.stdoutDigest
  stdoutBytes := by
    rw [hg.stdoutBytes, hf.stdoutBytes, hf.stdoutDigest, Bool.or_assoc, isSome_bind_or]

lemma resolved_filled_iff {b' : Option Bytes} (hsz : ∀ d, digest = some d → 0 ≤ d.size)
    (hb : b'.isSome = (bytes.isSome || (digest.bind f).isSome)) :
    resolved b' digest ↔ ∀ d, 0 < d.size → bytes = none → digest = some d → f d ≠ none := by
  unfold resolved
  rw [hb]
  cases digest with
  | none => simp
  | some d =>
    have hng := hsz d rfl
    simp only [Option.bind_some, Option.all_some, Bool.or_eq_true, beq_iff_eq, Option.some.injEq]
    constructor
    · intro h d' hd' hn heq
      subst heq
      rcases h with (h | h) | h
      · simp [hn] at h
      · exact Option.isSome_iff_ne_none.mp h
      · omega
    · intro h
      by_cases hz : d.size = 0
      · exact .inr hz
      · cases hs : bytes with
        | some content => simp
        | none =>
          have hf := h d (by omega) hs rfl
          exact .inl (.inr (Option.isSome_iff_ne_none.mpr hf))

lemma carried_resolved_iff (hsz : ∀ d, file.digest = some d → 0 ≤ d.size) :
    ((carried f file).sourcePath.isSome ∨ resolved (carried f file).bytes (carried f file).digest) ↔
      ∀ d, 0 < d.size → file.bytes = none → file.sourcePath = none → file.digest = some d →
        f d ≠ none := by
  by_cases hh : (file.bytes.isSome || file.sourcePath.isSome)
  · have hc : carried f file = file := by simp [carried, hh]
    rw [hc]
    simp only [Bool.or_eq_true, Option.isSome_iff_ne_none] at hh
    have hrs : file.bytes ≠ none → resolved file.bytes file.digest := by
      intro hb
      simp [resolved, Option.isSome_iff_ne_none.mpr hb]
    constructor
    · intro _ d _ hb hs _
      exact absurd hh (by simp [hb, hs])
    · intro _
      cases hh with
      | inl hb => exact .inr (hrs hb)
      | inr hs => exact .inl (Option.isSome_iff_ne_none.mpr hs)
  · simp only [Bool.or_eq_true, not_or, Option.not_isSome_iff_eq_none] at hh
    cases hd : file.digest with
    | none => simp [carried, hh.1, hh.2, hd, resolved]
    | some d =>
      have hng := hsz d hd
      have hr : (∀ d', 0 < d'.size → file.bytes = none → file.sourcePath = none →
          some d = some d' → f d' ≠ none) ↔ (0 < d.size → f d ≠ none) := by
        constructor
        · intro h hp
          exact h d hp hh.1 hh.2 rfl
        · intro h d' hp _ _ heq
          cases heq
          exact h hp
      rw [hr]
      cases hl : f d with
      | some content =>
        cases content <;> simp [carried, hh.1, hh.2, hd, hl, resolved]
      | none =>
        have hc : carried f file = file := by simp [carried, hd, hl]
        simp only [hc, hh.1, hh.2, hd, resolved, Option.isSome_none,
          Option.all_some, Bool.false_or, Bool.false_eq_true, beq_iff_eq, false_or, ne_eq,
          not_true_eq_false, imp_false]
        omega

lemma Filled.isHydrated_iff {filled : Manifest} (h : Filled f m filled)
    (hszs : ∀ digest, Referenced m digest → 0 ≤ digest.size) :
    filled.isHydrated ↔ ∀ digest, Needed m digest → f digest ≠ none := by
  rw [Proofs.isHydrated_iff, h.stderrDigest, h.stdoutDigest, h.files,
    resolved_filled_iff (fun d hd => hszs d (.inl hd)) h.stderrBytes,
    resolved_filled_iff (fun d hd => hszs d (.inr (.inl hd))) h.stdoutBytes]
  have hfls : (∀ file ∈ m.files.map (carried f), file.sourcePath.isSome ∨
        resolved file.bytes file.digest) ↔
      ∀ file ∈ m.files, ∀ d, 0 < d.size → file.bytes = none → file.sourcePath = none →
        file.digest = some d → f d ≠ none := by
    rw [forall_mem_map]
    refine forall₂_congr fun file hf => ?_
    exact carried_resolved_iff (fun d hd => hszs d (.inr (.inr ⟨file, hf, hd⟩)))
  rw [hfls]
  constructor
  · intro ⟨her, ho, hf⟩ digest ⟨hsz, hn⟩
    rcases hn with hn | hn | ⟨file, hm, hb, hs, hdg⟩
    · exact her digest hsz hn.1 hn.2
    · exact ho digest hsz hn.1 hn.2
    · exact hf file hm digest hsz hb hs hdg
  · intro hn
    refine ⟨fun d hsz hb hdg => ?_, fun d hsz hb hdg => ?_, fun file hm d hsz hb hs hdg => ?_⟩
    · exact hn d ⟨hsz, .inl ⟨hb, hdg⟩⟩
    · exact hn d ⟨hsz, .inr (.inl ⟨hb, hdg⟩)⟩
    · exact hn d ⟨hsz, .inr (.inr ⟨file, hm, hb, hs, hdg⟩)⟩

end

/-- Backends that return exactly the requested blobs that they hold. Copying blobs to the original
backend changes only that backend. -/
structure Serving {σ : Type} (env : StorageEnv σ)
    (held : σ → StorageBackend σ → Digest → Option BlobContent) (original : StorageBackend σ)
    (backends : List (StorageBackend σ)) : Prop where
  uninterrupted : ∀ s, (env.schedule s).interrupt = none
  retrieves : ∀ s, ∀ backend ∈ original :: backends, ∀ digests stream, ∃ blobs t,
    (backend.retrieveBlobs digests stream).run s = (.ok blobs, t) ∧
      (∀ digest content, (digest, content) ∈ blobs ↔
        digest ∈ digests ∧ held s backend digest = some content) ∧
      held t = held s
  reads : ∀ s, ∀ backend ∈ original :: backends, ∀ digest path,
    held s backend digest = some (.file path) → ∃ bytes, env.readFileBytes s path = .ok bytes
  finds : ∀ {s digests result t}, (original.findMissingBlobs digests).run s = (result, t) →
    ∀ backend ∈ backends, backend.id ≠ original.id → held t backend = held s backend
  stores : ∀ {s inputs stream result t},
    (original.storeBlobs inputs stream).run s = (result, t) →
    ∀ backend ∈ backends, backend.id ≠ original.id → held t backend = held s backend

section

variable {σ : Type} {env : StorageEnv σ} {held : σ → StorageBackend σ → Digest → Option BlobContent}
  {original b : StorageBackend σ} {backends : List (StorageBackend σ)}

lemma runBatches_serving (hs : Serving env held original backends)
    (hbe : b ∈ original :: backends) (ba : List (Batch Digest)) (s : σ) :
    ∃ rs t, (runBatches (fun batch => b.retrieveBlobs batch.items batch.stream) ba).run s =
        (rs, t) ∧
      (∀ digest content, (digest, content) ∈ joinedItems rs ↔
        digest ∈ ba.flatMap Batch.items ∧ held s b digest = some content) ∧
      held t = held s := by
  induction ba generalizing s with
  | nil => exact ⟨[], s, rfl, by simp [joinedItems], rfl⟩
  | cons batch ba ih =>
    obtain ⟨bs, t, hrt, hb, ht⟩ := hs.retrieves s b hbe batch.items batch.stream
    obtain ⟨rs, u, hrs, hr, hu⟩ := ih t
    refine ⟨.ok bs :: rs, u, ?_, fun digest content => ?_, hu.trans ht⟩
    · rw [runBatches, run_bind_of _ hrt, run_bind_of _ hrs]
      rfl
    · have hj : joinedItems (.ok bs :: rs) = bs ++ joinedItems rs := rfl
      rw [hj, mem_append, hb, hr, ht, flatMap_cons, mem_append]
      tauto

lemma retrieveBlobsBatched_serving (hs : Serving env held original backends)
    (hb : b ∈ original :: backends) (ds : List Digest) (s : σ) :
    ∃ r t, (b.retrieveBlobsBatched env.schedule ds).run s = (r, t) ∧
      (∀ digest content, (digest, content) ∈ r.blobs ↔
        digest ∈ ds ∧ held s b digest = some content) ∧
      held t = held s := by
  let ba := createBatches ds b.capabilities.maxBatchTotalSizeBytes
    (fun digest => asUsize digest.size)
  obtain ⟨rs, t, hrn, hr, ht⟩ := runBatches_serving hs hb ((env.schedule s).order ba) s
  have hjn : (joinBatches (env.schedule s)
      (fun batch => b.retrieveBlobs batch.items batch.stream) ba).run s =
      ((rs, false), t) := by
    unfold joinBatches
    rw [hs.uninterrupted s]
    exact run_bind_of _ hrn
  have hi : (((env.schedule s).order ba).flatMap Batch.items).Perm ds :=
    (((env.schedule s).order_perm ba).flatMap_right _).trans (createBatches_perm _ _ _)
  cases hrt : (b.retrieveBlobsBatched env.schedule ds).run s with
  | mk r u =>
    obtain ⟨joined, v, hj, hen⟩ := run_bind (run_get_bind hrt)
    cases hjn.symm.trans hj
    obtain ⟨rfl, rfl⟩ := run_pure hen
    refine ⟨_, t, rfl, fun digest content => ?_, ht⟩
    exact (hr digest content).trans (and_congr_left' hi.mem_iff)

lemma get_of_mem_iff {bs : Blobs} {ds : List Digest} {content : Digest → Option BlobContent}
    (h : ∀ digest c, (digest, c) ∈ bs ↔ digest ∈ ds ∧ content digest = some c)
    (digest : Digest) : bs.get digest = if digest ∈ ds then content digest else none := by
  unfold Blobs.get
  cases hf : bs.reverse.find? (fun bl => bl.1 == digest) with
  | none =>
    rw [find?_eq_none] at hf
    rw [Option.map_none]
    by_cases hm : digest ∈ ds
    · rw [if_pos hm]
      cases hc : content digest with
      | none => rfl
      | some c =>
        have hb := (h digest c).mpr ⟨hm, hc⟩
        exact absurd (beq_self_eq_true digest) (hf (digest, c) (mem_reverse.mpr hb))
    · rw [if_neg hm]
  | some bl =>
    have hb := mem_reverse.mp (mem_of_find?_eq_some hf)
    have hd : bl.1 = digest := by simpa using find?_some hf
    obtain ⟨hm, hc⟩ := (h bl.1 bl.2).mp hb
    rw [hd] at hm hc
    rw [if_pos hm, hc]
    rfl

/-- Only blobs with content are asked for. -/
def positive (content : Digest → Option BlobContent) (digest : Digest) : Option BlobContent :=
  if 0 < digest.size then content digest else none

lemma mem_collectUnhydratedBlobDigests {digest : Digest} :
    digest ∈ m.collectUnhydratedBlobDigests ↔ 0 < digest.size ∧
      (m.stderrBytes = none ∧ m.stderrDigest = some digest ∨
        m.stdoutBytes = none ∧ m.stdoutDigest = some digest ∨
        ∃ file ∈ m.files, file.bytes = none ∧ file.digest = some digest) := by
  have hsl : ∀ (bytes : Option Bytes) (r : Option Digest),
      digest ∈ unhydratedBlobDigest bytes r ↔ 0 < digest.size ∧ bytes = none ∧ r = some digest := by
    intro bytes r
    unfold unhydratedBlobDigest
    cases bytes with
    | none =>
      simp only [Option.isNone_none, if_true, mem_blobDigest, true_and]
      exact and_comm
    | some content => simp
  simp only [collectUnhydratedBlobDigests, mem_append, mem_flatMap, hsl]
  constructor
  · intro h
    rcases h with (h | h) | ⟨file, hf, h⟩
    · exact ⟨h.1, .inl h.2⟩
    · exact ⟨h.1, .inr (.inl h.2)⟩
    · exact ⟨h.1, .inr (.inr ⟨file, hf, h.2⟩)⟩
  · intro ⟨hs, h⟩
    rcases h with h | h | ⟨file, hf, h⟩
    · exact .inl (.inl ⟨hs, h⟩)
    · exact .inl (.inr ⟨hs, h⟩)
    · exact .inr ⟨file, hf, hs, h⟩

section

variable {bs : Blobs} {content : Digest → Option BlobContent}
  {rd : PathBuf → Except StorageError Bytes}

lemma get_eq_positive
    (hb : ∀ digest c, (digest, c) ∈ bs ↔
      digest ∈ m.collectUnhydratedBlobDigests ∧ content digest = some c)
    {digest : Digest} (hsl : 0 < digest.size → digest ∈ m.collectUnhydratedBlobDigests) :
    bs.get digest = positive content digest := by
  rw [get_of_mem_iff hb, positive]
  by_cases hs : 0 < digest.size
  · rw [if_pos hs, if_pos (hsl hs)]
  · rw [if_neg hs, if_neg (fun hm => hs (mem_collectUnhydratedBlobDigests.mp hm).1)]

def filledStdio (readFileBytes : PathBuf → Except StorageError Bytes)
    (lookup : Digest → Option BlobContent) (bytes : Option Bytes) (digest : Option Digest) :
    Option Bytes :=
  bytes.or ((digest.bind lookup).bind (fun content =>
    (content.readBytes readFileBytes).toOption))

lemma filledStdio_of_le {f g : Digest → Option BlobContent}
    (hl : ∀ digest content, f digest = some content → g digest = some content)
    (hp : ∀ digest, g digest ≠ none → digest.size ≠ (0 : Int))
    (hr : resolved (filledStdio rd f bytes digest) digest) :
    filledStdio rd f bytes digest = filledStdio rd g bytes digest := by
  cases bytes with
  | some bytes => rfl
  | none =>
    cases digest with
    | none => rfl
    | some digest =>
      cases hf : f digest with
      | some content => simp [filledStdio, hf, hl digest content hf]
      | none =>
        have hs : digest.size = (0 : Int) := by
          simpa [filledStdio, hf, resolved] using hr
        have hg : g digest = none := by
          by_contra hn
          exact hp digest hn hs
        simp [filledStdio, hf, hg]

variable (hr : ∀ digest p, content digest = some (.file p) → ∃ bytes, rd p = .ok bytes)

include hr

lemma hydrateStdio_eq (hg : ∀ d, bytes = none → digest = some d → bs.get d = positive content d) :
    hydrateStdio rd bs bytes digest = .ok (filledStdio rd (positive content) bytes digest) ∧
      (filledStdio rd (positive content) bytes digest).isSome =
        (bytes.isSome || (digest.bind (positive content)).isSome) := by
  cases bytes with
  | some content => exact ⟨rfl, rfl⟩
  | none =>
    cases digest with
    | none => exact ⟨rfl, rfl⟩
    | some d =>
      unfold hydrateStdio filledStdio
      rw [Option.bind_some, Option.bind_some, hg d rfl rfl]
      cases hf : positive content d with
      | none => exact ⟨rfl, rfl⟩
      | some c =>
        cases c with
        | inline inlined => exact ⟨rfl, rfl⟩
        | file p =>
          have hc : content d = some (.file p) := by
            unfold positive at hf
            split_ifs at hf
            exact hf
          obtain ⟨read, ho⟩ := hr d p hc
          simp [BlobContent.readBytes, ho, Except.map, Except.toOption]

lemma hydrate_eq
    (hbl : ∀ digest c, (digest, c) ∈ bs ↔
      digest ∈ m.collectUnhydratedBlobDigests ∧ content digest = some c) :
    m.hydrate rd bs = .ok { m with
        stderrBytes := filledStdio rd (positive content) m.stderrBytes
          m.stderrDigest
        stdoutBytes := filledStdio rd (positive content) m.stdoutBytes
          m.stdoutDigest
        files := m.files.map (carried (positive content)) } ∧
      Filled (positive content) m { m with
        stderrBytes := filledStdio rd (positive content) m.stderrBytes
          m.stderrDigest
        stdoutBytes := filledStdio rd (positive content) m.stdoutBytes
          m.stdoutDigest
        files := m.files.map (carried (positive content)) } := by
  have her := hydrateStdio_eq hr
    (fun d (hb : m.stderrBytes = none) (hd : m.stderrDigest = some d) =>
      get_eq_positive hbl (fun hs =>
        mem_collectUnhydratedBlobDigests.mpr ⟨hs, .inl ⟨hb, hd⟩⟩))
  have ho := hydrateStdio_eq hr
    (fun d (hb : m.stdoutBytes = none) (hd : m.stdoutDigest = some d) =>
      get_eq_positive hbl (fun hs =>
        mem_collectUnhydratedBlobDigests.mpr ⟨hs, .inr (.inl ⟨hb, hd⟩)⟩))
  have hf : m.files.map (ManifestFile.hydrate bs) = m.files.map (carried (positive content)) := by
    refine map_congr_left (fun file hfl => ?_)
    change carried bs.get file = _
    refine carried_congr (fun d hb _ hd => get_eq_positive hbl (fun hs => ?_))
    exact mem_collectUnhydratedBlobDigests.mpr ⟨hs, .inr (.inr ⟨file, hfl, hb, hd⟩)⟩
  refine ⟨?_, ⟨rfl, rfl, her.2, rfl, ho.2⟩⟩
  simp only [hydrate, her.1, ho.1, hf, bind, Except.bind, pure, Except.pure]

end

lemma hydrateManifestFromBackend_filled (hs : Serving env held original backends)
    (hb : b ∈ original :: backends) (m : Manifest) (s : σ) :
    ∃ filled bs t,
      (hydrateManifestFromBackend env b m).run s = (.ok (filled, bs), t) ∧
      Filled (positive (held s b)) m filled ∧ held t = held s := by
  obtain ⟨r, t, hr, hbl, ht⟩ := retrieveBlobsBatched_serving hs hb m.collectUnhydratedBlobDigests s
  have hrd : ∀ digest p, held s b digest = some (.file p) →
      ∃ bytes, env.readFileBytes t p = .ok bytes := by
    intro digest p hh
    rw [← ht] at hh
    exact hs.reads t b hb digest p hh
  obtain ⟨hhy, hf⟩ := hydrate_eq hrd hbl
  refine ⟨_, r.blobs, t, ?_, hf, ht⟩
  unfold hydrateManifestFromBackend
  rw [run_bind_of _ hr]
  change ((m.hydrate (env.readFileBytes t) r.blobs).map _, t) = _
  rw [hhy]
  rfl

lemma hydrateAndCopy_filled (hs : Serving env held original backends)
    (hb : b ∈ backends) (m : Manifest) (s : σ) :
    ∃ filled t, (hydrateManifestFromBackendAndCopyToOriginal env original b m).run s =
        (.ok filled, t) ∧
      Filled (positive (held s b)) m filled ∧
      ∀ o ∈ backends, o.id ≠ original.id → held t o = held s o := by
  obtain ⟨filled, bs, t, hh, hf, ht⟩ := hydrateManifestFromBackend_filled hs
    (mem_cons_of_mem _ hb) m s
  let inputs := copiedInputs m.collectUnhydratedBlobDigests bs
  cases hst : (original.storeBlobsBatched env.schedule inputs).run t with
  | mk r u =>
    have hos : ∀ o ∈ backends, o.id ≠ original.id → held u o = held s o := by
      refine storeBlobsBatched_keeps
        (I := fun u => ∀ o ∈ backends, o.id ≠ original.id → held u o = held s o)
        (fun hr hk o ho hi => ?_) (fun hr hk o ho hi => ?_) hst
        (fun o _ _ => by rw [ht])
      · exact (hs.finds hr o ho hi).trans (hk o ho hi)
      · exact (hs.stores hr o ho hi).trans (hk o ho hi)
    unfold hydrateManifestFromBackendAndCopyToOriginal
    rw [run_bind_of _ hh]
    dsimp only
    by_cases hc : (!inputs.isEmpty && original.isWritable)
    · refine ⟨filled, u, ?_, hf, hos⟩
      rw [if_pos hc, run_bind_of _ hst]
      rfl
    · refine ⟨filled, t, ?_, hf, fun o _ _ => by rw [ht]⟩
      rw [if_neg hc]
      rfl

/-- The other backends that hydrating asks for blobs. -/
def asked (original : StorageBackend σ) (backends : List (StorageBackend σ)) :
    List (StorageBackend σ) :=
  backends.filter (fun backend => backend.isReadable && backend.id != original.id)

/-- The content in the first backend that has it. -/
def firstHeld (contents : StorageBackend σ → Digest → Option BlobContent)
    (backends : List (StorageBackend σ)) : Digest → Option BlobContent :=
  positive (fun digest => backends.findSome? (fun backend => contents backend digest))

lemma firstHeld_cons (cs : StorageBackend σ → Digest → Option BlobContent)
    (b : StorageBackend σ) (backends : List (StorageBackend σ)) :
    firstHeld cs (b :: backends) = fun digest =>
      (positive (cs b) digest).or (firstHeld cs backends digest) := by
  funext digest
  unfold firstHeld positive
  by_cases hs : 0 < digest.size
  · simp only [if_pos hs, findSome?_cons]
    cases cs b digest <;> rfl
  · simp only [if_neg hs, Option.or_none]

/-- The loop fills from a part of what the backends hold that it would ask, and from all of it if it
does not stop early. -/
lemma hydrateFromBackends_filled (hsr : Serving env held original backends)
    (cs : StorageBackend σ → Digest → Option BlobContent) {r : List (StorageBackend σ)}
    (hr : ∀ o ∈ r, o ∈ backends) {s : σ} (hh : ∀ o ∈ backends, o.id ≠ original.id → held s o = cs o)
    (m : Manifest) :
    ∃ filled t l,
      (hydrateFromBackends env original r m).run s = (.ok filled, t) ∧
      Filled l m filled ∧
      (∀ digest content, l digest = some content →
        firstHeld cs (asked original r) digest = some content) ∧
      (filled.isHydrated = false → l = firstHeld cs (asked original r)) := by
  induction r generalizing s m with
  | nil =>
    have hn : firstHeld cs (asked original []) = fun _ => none := by
      funext digest
      simp [firstHeld, positive, asked]
    refine ⟨m, s, fun _ => none, rfl, Filled.refl m, ?_, fun _ => hn.symm⟩
    intro digest content h
    cases h
  | cons o r ih =>
    have hl : ∀ o ∈ r, o ∈ backends := fun o ho => hr o (mem_cons_of_mem _ ho)
    rw [hydrateFromBackends]
    by_cases hd : m.isHydrated
    · rw [if_pos hd]
      refine ⟨m, s, fun _ => none, rfl, Filled.refl m, ?_, fun h => ?_⟩
      · intro digest content h
        cases h
      · rw [hd] at h
        cases h
    · rw [if_neg hd]
      by_cases hs : (!o.isReadable || o.id == original.id)
      · have ha : asked original (o :: r) = asked original r := by
          refine filter_cons_of_neg ?_
          simp only [Bool.or_eq_true, Bool.not_eq_true', beq_iff_eq] at hs
          cases hs with
          | inl hu => simp [hu]
          | inr hi => simp [hi]
        rw [if_pos hs, ha]
        exact ih hl hh m
      · have hask : o.isReadable ∧ o.id ≠ original.id := by
          simpa using hs
        have ha : asked original (o :: r) = o :: asked original r :=
          filter_cons_of_pos (by simp [hask.1, hask.2])
        have ho : o ∈ backends := hr o mem_cons_self
        obtain ⟨mi, t, hc, hm, hk⟩ := hydrateAndCopy_filled hsr ho m s
        rw [hh o ho hask.2] at hm
        obtain ⟨filled, u, l, hrn, hfl, hsb, hal⟩ := ih hl
          (fun a han hi =>
            (hk a han hi).trans (hh a han hi)) mi
        rw [if_neg hs, run_bind_of _ hc, ha, firstHeld_cons]
        refine ⟨filled, u, _, hrn, hm.trans hfl, fun digest content hlk => ?_,
          fun h => by rw [hal h]⟩
        cases hf : positive (cs o) digest with
        | some c => simpa [hf] using hlk
        | none =>
          simp only [hf, Option.none_or] at hlk ⊢
          exact hsb digest content hlk

lemma hydrateManifest_filled {st : Storage σ} {so : LoadedManifest σ}
    (hs : Serving env held so.backend st.getBackends) (digest : Digest) (s : σ) :
    ∃ filled t l, (st.hydrateManifest env digest so).run s = (.ok (if filled.isHydrated then
          (some filled, if so.remote then st.warmLocalBackends digest filled else [])
          else (none, [])), t) ∧
      Filled l so.manifest filled ∧
      (∀ d content, l d = some content →
        firstHeld (held s) (so.backend :: asked so.backend st.getBackends) d = some content) ∧
      (filled.isHydrated = false →
        l = firstHeld (held s) (so.backend :: asked so.backend st.getBackends)) := by
  obtain ⟨mi, bs, t, hfs, hm, ht⟩ := hydrateManifestFromBackend_filled hs
    mem_cons_self so.manifest s
  obtain ⟨filled, u, l, hlp, hf, hsb, ha⟩ := hydrateFromBackends_filled hs
    (held s) (fun o ho => ho) (fun o _ _ => by rw [ht]) mi
  rw [firstHeld_cons]
  refine ⟨filled, u, _, ?_, hm.trans hf, fun d content hl => ?_, fun h => by rw [ha h]⟩
  · unfold Storage.hydrateManifest
    rw [run_bind_of _ hfs]
    dsimp only
    rw [run_bind_of _ hlp]
    dsimp only
    split <;> rfl
  · cases hh : positive (held s so.backend) d with
    | some c => simpa [hh] using hl
    | none =>
      simp only [hh, Option.none_or] at hl ⊢
      exact hsb d content hl

/-- Hydration succeeds exactly if each blob that is neither in the manifest nor, for a file, named
by its source path is held by the original backend or by a readable one with another id. The files
then carry what the first of these backends holds. -/
theorem hydrate_manifest_iff (env : StorageEnv σ) (storage : Storage σ) (digest : Digest)
    (source : LoadedManifest σ) (held : σ → StorageBackend σ → Digest → Option BlobContent)
    (hserving : Serving env held source.backend storage.getBackends)
    (hsizes : ∀ d, Referenced source.manifest d → 0 ≤ d.size) (s : σ) :
    ((∃ hydrated tasks t, (storage.hydrateManifest env digest source).run s =
        (.ok (some hydrated, tasks), t)) ↔
      ∀ d, Needed source.manifest d → held s source.backend d ≠ none ∨
        ∃ backend ∈ storage.getBackends, backend.isReadable = true ∧
          backend.id ≠ source.backend.id ∧ held s backend d ≠ none) ∧
      ∀ hydrated tasks t, (storage.hydrateManifest env digest source).run s =
          (.ok (some hydrated, tasks), t) →
        hydrated.files = source.manifest.files.map (carried (firstHeld (held s)
          (source.backend :: asked source.backend storage.getBackends))) := by
  let fu := firstHeld (held s) (source.backend :: asked source.backend storage.getBackends)
  obtain ⟨filled, t, l, hr, hf, hs, ha⟩ := hydrateManifest_filled hserving digest s
  have hh := hf.isHydrated_iff hsizes
  have hl : (∀ d, Needed source.manifest d → l d ≠ none) ↔
      ∀ d, Needed source.manifest d → fu d ≠ none := by
    constructor
    · intro h d hd
      obtain ⟨content, hc⟩ := Option.ne_none_iff_exists'.mp (h d hd)
      simp [fu, hs d content hc]
    · intro h
      by_contra hn
      have hfls : filled.isHydrated = false := by
        rw [← hh] at hn
        simpa using hn
      rw [ha hfls] at hn
      exact hn h
  have hhl : (∀ d, Needed source.manifest d → fu d ≠ none) ↔
      ∀ d, Needed source.manifest d → held s source.backend d ≠ none ∨
        ∃ backend ∈ storage.getBackends, backend.isReadable ∧
          backend.id ≠ source.backend.id ∧ held s backend d ≠ none := by
    refine forall₂_congr fun d hd => ?_
    simp only [fu, firstHeld, positive, if_pos hd.1, ne_eq, findSome?_eq_none_iff, mem_cons,
      forall_eq_or_imp, asked, mem_filter, Bool.and_eq_true, bne_iff_ne, not_and_or, not_forall]
    refine or_congr_right (exists_congr fun o => ?_)
    simp only [exists_prop, and_assoc]
  rw [← hhl, ← hl, ← hh, hr]
  by_cases hdn : filled.isHydrated
  · rw [if_pos hdn]
    refine ⟨⟨fun _ => hdn, fun _ => ⟨filled, _, t, rfl⟩⟩, fun hydrated tasks u heq => ?_⟩
    cases heq
    rw [hf.files]
    refine map_congr_left fun file hfl => carried_congr fun d hb hsr hdg => ?_
    by_cases hsz : 0 < d.size
    · have hnd : Needed source.manifest d :=
        ⟨hsz, .inr (.inr ⟨file, hfl, hb, hsr, hdg⟩)⟩
      obtain ⟨content, hc⟩ := Option.ne_none_iff_exists'.mp (hh.mp hdn d hnd)
      rw [hc, hs d content hc]
    · have hfu : fu d = none := if_neg hsz
      cases hc : l d with
      | none => exact hfu.symm
      | some content => exact (hs d content hc).symm
  · rw [if_neg hdn]
    refine ⟨⟨fun h => ?_, fun h => absurd h hdn⟩, fun hydrated tasks u heq => ?_⟩
    · obtain ⟨hydrated, tasks, u, heq⟩ := h
      cases heq
    · cases heq

end

lemma memory_serving (id : String) (ids : List String) :
    Serving memoryEnv (fun s b => (s b.id).blobs.get) (memoryBackend id)
      (ids.map memoryBackend) where
  uninterrupted _ := rfl
  retrieves s b hb ds stream := by
    have hmr : ∃ n, b = memoryBackend n := by
      cases mem_cons.mp hb with
      | inl heq => exact ⟨id, heq⟩
      | inr hm =>
        obtain ⟨n, _, heq⟩ := mem_map.mp hm
        exact ⟨n, heq.symm⟩
    obtain ⟨n, rfl⟩ := hmr
    refine ⟨_, s, rfl, fun digest content => ?_, rfl⟩
    simp only [mem_filterMap, Option.map_eq_some_iff, Prod.mk.injEq]
    constructor
    · intro ⟨d, hd, c, hc, hdg, hcn⟩
      subst hdg hcn
      exact ⟨hd, hc⟩
    · intro ⟨hd, hc⟩
      exact ⟨digest, hd, content, hc, rfl, rfl⟩
  reads _ _ _ _ _ _ := ⟨[], rfl⟩
  finds h _ _ _ := by
    cases h
    rfl
  stores h other _ hi := by
    cases h
    have hn : other.id ≠ id := hi
    simp only [Function.update_of_ne hn]

def twoMemories : Storage (String → Memory) where
  localBackends := [memoryBackend "local"]
  remoteBackends := [memoryBackend "remote"]
  workspaceRoot := slashRoot

def distFile (hash : String) : ManifestFile := { path := ⟨["dist"]⟩, digest := some ⟨hash, 1⟩ }

def loadedWith (file : ManifestFile) : LoadedManifest (String → Memory) where
  backend := memoryBackend "local"
  manifest := { files := [file] }
  remote := false

/-- A file that names its source counts as hydrated, whatever the backends hold. -/
theorem source_path_hydrated_without_blob :
    (∃ hydrated tasks t, (twoMemories.hydrateManifest memoryEnv ⟨"d0", 2⟩
        (loadedWith { distFile "c3" with sourcePath := some ⟨true, []⟩ })).run partlyLocal =
          (.ok (some hydrated, tasks), t)) ∧
      ∀ b ∈ twoMemories.getBackends, (partlyLocal b.id).blobs.get ⟨"c3", 1⟩ = none := by
  refine ⟨⟨_, _, _, rfl⟩, fun b hb => ?_⟩
  change b ∈ [memoryBackend "local", memoryBackend "remote"] at hb
  simp only [mem_cons, not_mem_nil, or_false] at hb
  cases hb with
  | inl heq =>
    subst heq
    decide
  | inr heq =>
    subst heq
    decide

theorem remote_blob_hydrated : Serving memoryEnv (fun s backend => (s backend.id).blobs.get)
        (loadedWith (distFile "b2")).backend
        twoMemories.getBackends ∧
      (∀ d, Referenced (loadedWith (distFile "b2")).manifest d → 0 ≤ d.size) ∧
      ∃ hydrated tasks t, (twoMemories.hydrateManifest memoryEnv ⟨"d0", 2⟩
        (loadedWith (distFile "b2"))).run partlyLocal = (.ok (some hydrated, tasks), t) := by
  have hs := memory_serving "local" ["local", "remote"]
  have hsz : ∀ d, Referenced (loadedWith (distFile "b2")).manifest d → 0 ≤ d.size := by
    intro d hd
    rcases hd with hd | hd | ⟨file, hf, hd⟩
    · cases hd
    · cases hd
    · rw [mem_singleton.mp hf] at hd
      cases hd
      decide
  refine ⟨hs, hsz, ?_⟩
  refine (hydrate_manifest_iff memoryEnv twoMemories ⟨"d0", 2⟩ (loadedWith (distFile "b2"))
    (fun s backend => (s backend.id).blobs.get) hs hsz partlyLocal).1.mpr ?_
  intro d hd
  have hb2 : d = ⟨"b2", 1⟩ := by
    rcases hd.2 with hd | hd | ⟨file, hf, _, _, hd⟩
    · cases hd.2
    · cases hd.2
    · rw [mem_singleton.mp hf] at hd
      cases hd
      rfl
  subst hb2
  refine .inr ⟨memoryBackend "remote", ?_, rfl, by decide, by decide⟩
  exact mem_cons_of_mem _ mem_cons_self

end Moon.Proofs
