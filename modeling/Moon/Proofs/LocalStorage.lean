import Moon.LocalStorage
import Moon.Proofs.Hydration

/-! # The local storage on its own -/

namespace Moon.Proofs
open Lib List Manifest

variable {digest : Digest} {ds : List Digest} {disk' : LocalDisk} {r : RetrieveResult}
  {m hydrated : Manifest}

section

lemma hashPrefix_append_hashSuffix (hash : String) : hashPrefix hash ++ hashSuffix hash = hash := by
  unfold hashPrefix hashSuffix
  rw [← String.ofList_append, take_append_drop, String.ofList_toList]

lemma hashOfPath_objectPath (s : CasStore) (hash : String) :
    s.hashOfPath (s.objectPath hash) = some hash := by
  have hd : (s.objectPath hash).components.drop s.objectsDir.components.length =
      [.normal (hashPrefix hash), .normal (hashSuffix hash)] := by
    simp [CasStore.objectPath, PathBuf.push]
  unfold CasStore.hashOfPath
  rw [hd]
  simp only [hashPrefix_append_hashSuffix, if_true]

variable (storage : LocalStorage) (disk : LocalDisk)

lemma readFileBytes_objectPath {hash : String} {o : CasObject Bytes}
    (h : disk.blobs.lookup hash = some o) :
    storage.readFileBytes disk (storage.blobs.objectPath hash) = .ok o.content := by
  simp [LocalStorage.readFileBytes, hashOfPath_objectPath, h]

end

section

variable {storage : LocalStorage} {env : StorageEnv LocalDisk} {root : WorkspaceRoot}
  {f : StoredManifest → String} {disk : LocalDisk}

def localHeld (storage : LocalStorage) (disk : LocalDisk) (digest : Digest) : Option BlobContent :=
  if disk.blobs.containsObject digest.hash then
    some (.file (storage.blobs.objectPath digest.hash))
  else none

/-- Files are read from the disk, and nothing is interrupted. -/
structure LocalEnv (storage : LocalStorage) (env : StorageEnv LocalDisk) : Prop where
  reads : env.readFileBytes = storage.readFileBytes
  uninterrupted : ∀ disk, (env.schedule disk).interrupt = none

lemma localHeld_file {p : PathBuf} (h : localHeld storage disk digest = some (.file p)) :
    ∃ o, disk.blobs.lookup digest.hash = some o ∧ storage.readFileBytes disk p = .ok o.content := by
  unfold localHeld at h
  split_ifs at h with hc
  obtain ⟨o, ho⟩ := Finmap.mem_iff.mp (of_decide_eq_true hc)
  cases h
  exact ⟨o, ho, readFileBytes_objectPath storage disk ho⟩

lemma local_serving (f : StoredManifest → String) (hen : LocalEnv storage env) :
    Serving env (fun disk _ => localHeld storage disk) (storage.backend f) [storage.backend f] where
  uninterrupted := hen.uninterrupted
  retrieves disk backend hb ds stream := by
    have hs : backend = storage.backend f := by simpa using hb
    subst hs
    refine ⟨_, disk, rfl, fun digest c => ?_, rfl⟩
    simp only [mem_filterMap, localHeld]
    constructor
    · intro ⟨d, hd, heq⟩
      split_ifs at heq with hc
      cases heq
      exact ⟨hd, if_pos hc⟩
    · intro ⟨hd, heq⟩
      split_ifs at heq with hc
      cases heq
      exact ⟨digest, hd, if_pos hc⟩
  reads disk _ _ digest p hh := by
    obtain ⟨o, _, hr⟩ := localHeld_file hh
    exact ⟨o.content, by rw [hen.reads, hr]⟩
  finds _ other ho hi := absurd (congrArg StorageBackend.id (mem_singleton.mp ho)) hi
  stores _ other ho hi := absurd (congrArg StorageBackend.id (mem_singleton.mp ho)) hi

lemma local_retrieveBlobsBatched
    (h : ((storage.backend f).retrieveBlobsBatched env.schedule ds).run disk = (r, disk')) :
    disk' = disk := by
  obtain ⟨joined, t, hj, hen⟩ := run_bind (run_get_bind h)
  obtain ⟨_, rfl⟩ := run_pure hen
  refine joinBatches_keeps (I := fun t => t = disk) (env.schedule disk)
    (fun batch _ {s r s'} hr hs => ?_) hj rfl
  cases hr
  exact hs

def restored (storage : LocalStorage) (disk : LocalDisk) (manifest : Manifest) : Manifest :=
  { manifest with
    stderrBytes := filledStdio (storage.readFileBytes disk) (positive (localHeld storage disk))
      manifest.stderrBytes manifest.stderrDigest
    stdoutBytes := filledStdio (storage.readFileBytes disk) (positive (localHeld storage disk))
      manifest.stdoutBytes manifest.stdoutDigest
    files := manifest.files.map (carried (positive (localHeld storage disk))) }

lemma local_hydrateManifestFromBackend (f : StoredManifest → String)
    (hen : LocalEnv storage env) (m : Manifest) (disk : LocalDisk) :
    (∃ bs, (hydrateManifestFromBackend env (storage.backend f) m).run disk =
        (.ok (restored storage disk m, bs), disk)) ∧
      Filled (positive (localHeld storage disk)) m (restored storage disk m) := by
  obtain ⟨r, t, hr, hb, _⟩ := retrieveBlobsBatched_serving (local_serving f hen) mem_cons_self
    m.collectUnhydratedBlobDigests disk
  have ht : t = disk := local_retrieveBlobsBatched hr
  subst ht
  have hrd : ∀ digest p, localHeld storage t digest = some (.file p) →
      ∃ b, storage.readFileBytes t p = .ok b := by
    intro digest p hhl
    obtain ⟨o, _, hrd⟩ := localHeld_file hhl
    exact ⟨o.content, hrd⟩
  obtain ⟨hh, hf⟩ := hydrate_eq hrd hb
  refine ⟨⟨r.blobs, ?_⟩, hf⟩
  unfold hydrateManifestFromBackend
  rw [run_bind_of _ hr]
  change ((m.hydrate (env.readFileBytes t) r.blobs).map _, t) = _
  rw [hen.reads, hh]
  rfl

lemma local_received
    (h : ((storage.backend f).retrieveBlobsBatched env.schedule ds).run disk = (r, disk')) :
    ∀ b ∈ r.blobs, b.1 ∈ ds ∧ localHeld storage disk b.1 = some b.2 := by
  obtain ⟨joined, t, hj, hen⟩ := run_bind (run_get_bind h)
  obtain ⟨rfl, rfl⟩ := run_pure hen
  obtain ⟨ran, taken, results, hr, heq⟩ := joinBatches_run (env.schedule disk) hj
  intro b hb
  rw [heq] at hb
  refine runBatches_items (I := fun t => t = disk)
    (P := fun b => b.1 ∈ ds ∧ localHeld storage disk b.1 = some b.2)
    (fun batch hbt {s r s'} hrn hs => ?_) hr rfl b
    ((joinedItems_take_sublist results taken).subset hb)
  replace hbt := mem_of_mem_take_order hbt
  cases hrn
  refine ⟨hs, fun items hi b hb => ?_⟩
  cases hi
  obtain ⟨digest, hd, heq⟩ := mem_filterMap.mp hb
  have ha : digest ∈ ds := (createBatches_perm _ _ _).mem_iff.mp (mem_flatMap_of_mem hbt hd)
  split_ifs at heq with hc
  cases heq
  rw [hs] at hc
  exact ⟨ha, if_pos hc⟩

lemma restored_of_received (hen : env.readFileBytes = storage.readFileBytes) {bs : Blobs}
    (hb : ∀ b ∈ bs, b.1 ∈ m.collectUnhydratedBlobDigests ∧ localHeld storage disk b.1 = some b.2)
    (h : m.hydrate (env.readFileBytes disk) bs = .ok hydrated)
    (hdn : hydrated.isHydrated) : hydrated = restored storage disk m := by
  let re (digest : Digest) : Option BlobContent :=
    if digest ∈ bs.map Prod.fst then localHeld storage disk digest else none
  have hr : ∀ digest c, (digest, c) ∈ bs ↔
      digest ∈ m.collectUnhydratedBlobDigests ∧ re digest = some c := by
    intro digest c
    constructor
    · intro hm
      have hfs : digest ∈ bs.map Prod.fst := mem_map_of_mem hm
      exact ⟨(hb _ hm).1, (if_pos hfs).trans (hb _ hm).2⟩
    · intro ⟨_, hs⟩
      have hfs : digest ∈ bs.map Prod.fst := by
        by_contra hnt
        simp [re, hnt] at hs
      obtain ⟨⟨_, o⟩, hm, rfl⟩ := mem_map.mp hfs
      have ho : some o = some c := (hb _ hm).2.symm.trans ((if_pos hfs).symm.trans hs)
      cases ho
      exact hm
  have hh : ∀ digest c, re digest = some c →
      localHeld storage disk digest = some c := by
    intro digest c hs
    by_cases hfs : digest ∈ bs.map Prod.fst
    · exact (if_pos hfs).symm.trans hs
    · simp [re, hfs] at hs
  have hrd : ∀ digest p, re digest = some (.file p) →
      ∃ bytes, env.readFileBytes disk p = .ok bytes := by
    intro digest p hs
    obtain ⟨ob, _, hok⟩ := localHeld_file (hh digest _ hs)
    exact ⟨ob.content, by rw [hen, hok]⟩
  have hl : ∀ digest c, positive re digest = some c →
      positive (localHeld storage disk) digest = some c := by
    intro digest c hs
    unfold positive at hs ⊢
    by_cases hsz : 0 < digest.size
    · rw [if_pos hsz] at hs ⊢
      exact hh digest c hs
    · simp [hsz] at hs
  have hp : ∀ digest, positive (localHeld storage disk) digest ≠ none →
      digest.size ≠ (0 : Int) := by
    intro digest hn hz
    simp [positive, hz] at hn
  cases h.symm.trans (hydrate_eq hrd hr).1
  obtain ⟨her, hot, hfls⟩ := isHydrated_iff.mp hdn
  rw [hen] at her hot ⊢
  have hmp : m.files.map (carried (positive re)) =
      m.files.map (carried (positive (localHeld storage disk))) := by
    apply map_congr_left
    intro f hfl
    apply carried_congr
    intro digest hby hsr hd
    cases hf : positive re digest with
    | some c => exact (hl digest c hf).symm
    | none =>
      have hsa : carried (positive re) f = f := by simp [carried, hd, hf]
      have hsz : digest.size = (0 : Int) := by
        simpa [hsa, hby, hsr, hd, resolved] using hfls _ (mem_map_of_mem hfl)
      by_contra hn
      exact hp digest (Ne.symm hn) hsz
  simp only [restored, hmp, filledStdio_of_le hl hp her, filledStdio_of_le hl hp hot]

lemma alone_hydrateFromBackends (m : Manifest) (disk : LocalDisk) :
    (hydrateFromBackends env (storage.backend f)
      (storage.alone f root).getBackends m).run disk = (.ok m, disk) := by
  change (hydrateFromBackends env (storage.backend f) [storage.backend f] _).run _ = _
  rw [hydrateFromBackends]
  by_cases hd : m.isHydrated
  · rw [if_pos hd]
    rfl
  · have hs : (!(storage.backend f).isReadable ||
        (storage.backend f).id == (storage.backend f).id) := by simp
    rw [if_neg hd, if_pos hs]
    rfl

lemma alone_hydrateManifest_some (henv : env.readFileBytes = storage.readFileBytes)
    {tasks : List (PersistTask LocalDisk)}
    (h : ((storage.alone f root).hydrateManifest env digest
        ⟨storage.backend f, m, false⟩).run disk = (.ok (some hydrated, tasks), disk')) :
    disk' = disk ∧ hydrated = restored storage disk m ∧ hydrated.isHydrated := by
  obtain ⟨first, t, hfs, hrs⟩ := run_bind h
  obtain ⟨r, u, hr, hh⟩ := run_bind hfs
  have hu : u = disk := local_retrieveBlobsBatched hr
  subst hu
  have hen := run_get_bind hh
  obtain ⟨heq, rfl⟩ := run_pure hen
  cases hf : m.hydrate (env.readFileBytes u) r.blobs with
  | error error =>
    rw [hf] at heq
    cases heq
    cases run_pure hrs
    contradiction
  | ok filled =>
    rw [hf] at heq
    cases heq
    dsimp only [Except.map] at hrs
    rw [run_bind_of _ (alone_hydrateFromBackends filled u)] at hrs
    dsimp only at hrs
    split at hrs
    · rename_i hd
      cases hrs
      exact ⟨rfl, restored_of_received henv (local_received hr) hf hd, hd⟩
    · cases hrs

lemma alone_hydrateManifest (hen : LocalEnv storage env) (digest : Digest)
    (m : Manifest) (disk : LocalDisk) :
    ((storage.alone f root).hydrateManifest env digest ⟨storage.backend f, m, false⟩).run disk =
      (.ok (if (restored storage disk m).isHydrated then
        (some (restored storage disk m), []) else (none, [])), disk) := by
  obtain ⟨⟨bs, hf⟩, _⟩ := local_hydrateManifestFromBackend f hen m disk
  unfold Storage.hydrateManifest
  rw [run_bind_of _ hf]
  dsimp only
  rw [run_bind_of _ (alone_hydrateFromBackends _ disk)]
  dsimp only
  split <;> rfl

end

section

variable (storage : LocalStorage) {t : LocalDisk} {a : String → Option Bytes}

def found (after : String → Option Bytes) (digest : Digest) : Option Bytes :=
  if 0 < digest.size then after digest.hash else none

def Resolvable (after : String → Option Bytes) (digest : Digest) : Prop :=
  digest.size = (0 : Int) ∨ found after digest ≠ none

section

variable (hafter : ∀ hash, (t.blobs.lookup hash).map CasObject.content = a hash)
include hafter

lemma positive_localHeld (digest : Digest) :
    positive (localHeld storage t) digest =
      (found a digest).map (fun _ => .file (storage.blobs.objectPath digest.hash)) ∧
    ∀ b, found a digest = some b →
      storage.readFileBytes t (storage.blobs.objectPath digest.hash) = .ok b := by
  unfold positive found localHeld
  rw [← hafter]
  by_cases hs : 0 < digest.size
  · cases ho : t.blobs.lookup digest.hash with
    | none =>
      have ha : digest.hash ∉ t.blobs := Finmap.lookup_eq_none.mp ho
      simp [hs, CasObjects.containsObject, ha]
    | some o =>
      have hm : digest.hash ∈ t.blobs := Finmap.mem_iff.mpr ⟨o, ho⟩
      refine ⟨by simp [hs, CasObjects.containsObject, hm], fun b hb => ?_⟩
      rw [readFileBytes_objectPath storage t ho]
      simpa [hs] using hb
  · simp [hs]

lemma filledStdio_found (r : Option Digest) :
    filledStdio (storage.readFileBytes t) (positive (localHeld storage t)) none r =
      r.bind (found a) := by
  cases r with
  | none => rfl
  | some digest =>
    obtain ⟨hh, hr⟩ := positive_localHeld storage hafter digest
    cases hf : found a digest with
    | none => simp [filledStdio, hh, hf]
    | some b =>
      simp [filledStdio, hh, hf, BlobContent.readBytes, hr b hf, Except.toOption]

lemma carried_found (f : ManifestFile) :
    (carried (positive (localHeld storage t)) f.serialized).serialized = f.serialized ∧
    (∀ digest, f.digest = some digest →
      (carried (positive (localHeld storage t)) f.serialized).outputBytes
        (storage.readFileBytes t) = .ok ((found a digest).getD [])) ∧
    (((carried (positive (localHeld storage t)) f.serialized).sourcePath.isSome ∨
        resolved (carried (positive (localHeld storage t)) f.serialized).bytes
          (carried (positive (localHeld storage t)) f.serialized).digest) ↔
      ∀ digest, f.digest = some digest → Resolvable a digest) := by
  cases hd : f.digest with
  | none => simp [carried, ManifestFile.serialized, hd, resolved]
  | some digest =>
    obtain ⟨hh, hr⟩ := positive_localHeld storage hafter digest
    cases hf : found a digest with
    | none =>
      simp [carried, ManifestFile.serialized, hd, hh, hf, resolved,
        ManifestFile.outputBytes, Resolvable]
    | some b =>
      simp [carried, ManifestFile.serialized, hd, hh, hf, resolved,
        ManifestFile.outputBytes, Resolvable, hr b hf]

end

lemma resolved_found_iff (r : Option Digest) :
    resolved (r.bind (found a)) r ↔ ∀ digest, r = some digest → Resolvable a digest := by
  cases r with
  | none => simp [resolved]
  | some digest =>
    simp [resolved, Resolvable, Option.isSome_iff_ne_none, or_comm]

end

def verifyingStorage : LocalStorage where
  id := "local"
  blobs := ⟨⟨true, [.normal "blobs"]⟩, true⟩
  manifests := ⟨⟨true, [.normal "manifests"]⟩, false⟩
  manifests_unverified := rfl

def verifyingEnv : StorageEnv LocalDisk where
  now := LocalDisk.now
  readFileBytes := verifyingStorage.readFileBytes
  schedule _ := inSpawnOrder

end Moon.Proofs
