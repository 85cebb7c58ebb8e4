import Moon.Proofs.LocalStorage
import Moon.Proofs.OutputHydrater

/-! # Integrity of hydrated contents -/

namespace Moon.Proofs
open List Manifest

/-- What is written and replayed hashes to the digests of the manifest. The streams are replayed as
text, `utf8Lossy` of their bytes. -/
structure Authentic (sha256 : Bytes → String) (utf8Lossy : Bytes → Bytes)
    (readFileBytes : PathBuf → Except StorageError Bytes) (manifest : Manifest) : Prop where
  files : ∀ file ∈ manifest.files, ∀ digest, file.digest = some digest →
    ∀ bytes, file.outputBytes readFileBytes = .ok bytes → sha256 bytes = digest.hash
  stderr : ∀ digest bytes, manifest.stderrDigest = some digest →
    manifest.stderrBytes = some bytes → sha256 (utf8Lossy bytes) = digest.hash
  stdout : ∀ digest bytes, manifest.stdoutDigest = some digest →
    manifest.stdoutBytes = some bytes → sha256 (utf8Lossy bytes) = digest.hash

def ObjectIntact (hashOf : Bytes → String) (disk : LocalDisk) (digest : Digest) : Prop :=
  ∀ object, disk.blobs.lookup digest.hash = some object → hashOf object.content = digest.hash

/-- The objects that a manifest refers to are intact, and its empty files have the digest of
the empty content. -/
structure Intact (sha256 : Bytes → String) (utf8Lossy : Bytes → Bytes) (disk : LocalDisk)
    (manifest : Manifest) : Prop where
  files : ∀ file ∈ manifest.files, ∀ digest, file.digest = some digest →
    if 0 < digest.size then ObjectIntact sha256 disk digest else sha256 [] = digest.hash
  stderr : ∀ digest, manifest.stderrDigest = some digest → 0 < digest.size →
    ObjectIntact (sha256 ∘ utf8Lossy) disk digest
  stdout : ∀ digest, manifest.stdoutDigest = some digest → 0 < digest.size →
    ObjectIntact (sha256 ∘ utf8Lossy) disk digest

section

variable {sha256 : Bytes → String} {u : Bytes → Bytes} {s : LocalStorage} {disk : LocalDisk}

def contents (disk : LocalDisk) (hash : String) : Option Bytes :=
  (disk.blobs.lookup hash).map CasObject.content

lemma contents_held (disk : LocalDisk) (hash : String) :
    (disk.blobs.lookup hash).map CasObject.content = contents disk hash :=
  rfl

lemma objectIntact_iff {ha : Bytes → String} {d : Digest} (hs : 0 < d.size) :
    ObjectIntact ha disk d ↔ ∀ b, found (contents disk) d = some b → ha b = d.hash := by
  unfold ObjectIntact found contents
  rw [if_pos hs]
  cases disk.blobs.lookup d.hash with
  | none => simp
  | some object => simp

lemma replayed_iff (r : Option Digest) :
    (∀ d b, r = some d → filledStdio (s.readFileBytes disk) (positive (localHeld s disk)) none
          r = some b → sha256 (u b) = d.hash) ↔
      ∀ d, r = some d → 0 < d.size → ObjectIntact (sha256 ∘ u) disk d := by
  have hf := filledStdio_found s (contents_held disk) r
  rw [hf]
  constructor
  · intro h d hd hs
    subst hd
    exact (objectIntact_iff hs).mpr (fun b => h d b rfl)
  · intro h d b hd hb
    subst hd
    have hs : 0 < d.size := by
      by_contra hem
      simp [found, hem] at hb
    exact (objectIntact_iff hs).mp (h d rfl hs) b hb

lemma written_iff {f : ManifestFile} {d : Digest} (hd : f.digest = some d)
    (hrs : (carried (positive (localHeld s disk)) f.serialized).sourcePath.isSome ∨
      resolved (carried (positive (localHeld s disk)) f.serialized).bytes
        (carried (positive (localHeld s disk)) f.serialized).digest) :
    (∀ b, (carried (positive (localHeld s disk)) f.serialized).outputBytes
        (s.readFileBytes disk) = .ok b → sha256 b = d.hash) ↔
      if 0 < d.size then ObjectIntact sha256 disk d else sha256 [] = d.hash := by
  obtain ⟨-, hb, hr⟩ := carried_found s (contents_held disk) f
  have hf := hr.mp hrs d hd
  rw [hb d hd]
  by_cases hs : 0 < d.size
  · rw [if_pos hs, objectIntact_iff hs]
    obtain ⟨b, hsm⟩ := Option.ne_none_iff_exists'.mp (hf.resolve_left hs.ne')
    simp [hsm]
  · rw [if_neg hs]
    simp [found, hs]

lemma sameOutputs_restored (m : Manifest) : SameOutputs (restored s disk m.serialized) m := by
  refine ⟨?_, rfl⟩
  simp only [restored, serialized, map_map]
  apply map_congr_left
  intro f _
  obtain ⟨hp, hd⟩ := carried_same (positive (localHeld s disk)) f.serialized
  exact Prod.ext hp hd

end

/-- Hydration that succeeds writes and replays what the digests say exactly if the objects
are intact, whether or not the store is configured to verify them. -/
theorem hydrated_authentic_iff (sha256 : Bytes → String) (utf8Lossy : Bytes → Bytes)
    (sha256Json : StoredManifest → String) (storage : LocalStorage) (env : StorageEnv LocalDisk)
    (henv : env.readFileBytes = storage.readFileBytes) (root : WorkspaceRoot)
    (unpacker : ManifestUnpacker) (digest : Digest) (manifest : Manifest)
    {hydrated : Manifest} {tasks : List (PersistTask LocalDisk)} {disk disk' : LocalDisk}
    (hhydrate : ((storage.alone sha256Json root).hydrateManifest env digest
        ⟨storage.backend sha256Json, manifest.serialized, false⟩).run disk =
      (.ok (some hydrated, tasks), disk')) :
    ((unpacker.unpack hydrated).2 = .ok () →
        Authentic sha256 utf8Lossy (storage.readFileBytes disk') hydrated) ↔
      ((unpacker.unpack manifest).2 = .ok () → Intact sha256 utf8Lossy disk manifest) := by
  obtain ⟨rfl, rfl, hdn⟩ := alone_hydrateManifest_some henv hhydrate
  obtain ⟨_, _, hr⟩ := isHydrated_iff.mp hdn
  have hc : Authentic sha256 utf8Lossy (storage.readFileBytes disk')
      (restored storage disk' manifest.serialized) ↔ Intact sha256 utf8Lossy disk' manifest := by
    constructor
    · intro h
      refine ⟨fun f hf digest hd => ?_, (replayed_iff _).mp h.stderr, (replayed_iff _).mp h.stdout⟩
      have hm : carried (positive (localHeld storage disk')) f.serialized ∈
          (restored storage disk' manifest.serialized).files :=
        mem_map_of_mem (mem_map_of_mem hf)
      have hcr := (carried_same (positive (localHeld storage disk')) f.serialized).2
      exact (written_iff hd (hr _ hm)).mp (h.files _ hm digest (hcr.trans hd))
    · intro h
      refine ⟨fun f hm digest hd => ?_, (replayed_iff _).mpr h.stderr,
        (replayed_iff _).mpr h.stdout⟩
      obtain ⟨_, hs, rfl⟩ := mem_map.mp hm
      obtain ⟨o, ho, rfl⟩ := mem_map.mp hs
      rw [(carried_same _ _).2] at hd
      exact (written_iff hd (hr _ hm)).mpr (h.files o ho digest hd)
  rw [(sameOutputs_restored manifest).unpack_eq unpacker]
  exact imp_congr_right (fun _ => hc)

def spelledHash (bytes : Bytes) : String :=
  String.ofList (bytes.map (fun byte => Char.ofNat byte.toNat))

def diskWith (content : Bytes) : LocalDisk where
  blobs := CasObjects.write ∅ "hi" content 0
  manifests := ∅
  files := ∅
  now := 0

lemma diskWith_lookup (c : Bytes) : (diskWith c).blobs.lookup "hi" = some ⟨c, 0⟩ :=
  Finmap.lookup_insert _

lemma diskWith_replays (c : Bytes) : filledStdio (verifyingStorage.readFileBytes (diskWith c))
      (positive (localHeld verifyingStorage (diskWith c))) none (some ⟨"hi", 2⟩) = some c := by
  have hf := filledStdio_found verifyingStorage (contents_held (diskWith c)) (some ⟨"hi", 2⟩)
  rw [hf]
  simp [found, contents, diskWith_lookup]

def hiManifest : Manifest where
  files := [{ path := ⟨["out"]⟩, digest := some ⟨"hi", 2⟩ }]
  stdoutDigest := some ⟨"hi", 2⟩

def acceptingUnpacker : ManifestUnpacker := ⟨slashRoot, fun _ => true⟩

lemma hiManifest_hydrates (c : Bytes) :
    ((verifyingStorage.alone (fun _ => "") slashRoot).hydrateManifest verifyingEnv ⟨"d0", 2⟩
        ⟨verifyingStorage.backend (fun _ => ""), hiManifest.serialized, false⟩).run
        (diskWith c) =
      (.ok (some (restored verifyingStorage (diskWith c) hiManifest.serialized), []),
        diskWith c) := by
  have hen : LocalEnv verifyingStorage verifyingEnv := ⟨rfl, fun _ => rfl⟩
  have hh : localHeld verifyingStorage (diskWith c) ⟨"hi", 2⟩ =
      some (.file (verifyingStorage.blobs.objectPath "hi")) := by
    have hm : "hi" ∈ (diskWith c).blobs := Finmap.mem_iff.mpr ⟨_, diskWith_lookup c⟩
    simp [localHeld, CasObjects.containsObject, hm]
  have hd : (restored verifyingStorage (diskWith c) hiManifest.serialized).isHydrated =
      true := by
    simp [isHydrated, resolved, restored, hiManifest, serialized,
      ManifestFile.serialized, diskWith_replays, carried, positive, hh]
  rw [alone_hydrateManifest hen, if_pos hd]

/-- A store that verifies its blobs, with an object that was changed. -/
theorem corrupted_object_replayed :
    verifyingStorage.blobs.verifyIntegrity = true ∧
      ∃ hydrated, ((verifyingStorage.alone (fun _ => "") slashRoot).hydrateManifest verifyingEnv
          ⟨"d0", 2⟩ ⟨verifyingStorage.backend (fun _ => ""), hiManifest.serialized, false⟩).run
          (diskWith [104, 111]) = (.ok (some hydrated, []), diskWith [104, 111]) ∧
        (acceptingUnpacker.unpack hydrated).2 = .ok () ∧
        ¬ Authentic spelledHash id (verifyingStorage.readFileBytes (diskWith [104, 111]))
          hydrated := by
  refine ⟨rfl, _, hiManifest_hydrates _, ?_, fun h => ?_⟩
  · rw [(sameOutputs_restored hiManifest).unpack_eq]
    decide
  · have hr := h.stdout ⟨"hi", 2⟩ [104, 111] rfl (diskWith_replays [104, 111])
    exact absurd hr (by decide)

theorem intact_object_restored :
    ∃ hydrated, ((verifyingStorage.alone (fun _ => "") slashRoot).hydrateManifest verifyingEnv
        ⟨"d0", 2⟩ ⟨verifyingStorage.backend (fun _ => ""), hiManifest.serialized, false⟩).run
        (diskWith [104, 105]) = (.ok (some hydrated, []), diskWith [104, 105]) ∧
      ((acceptingUnpacker.unpack hydrated).2 = .ok () →
        Authentic spelledHash id (verifyingStorage.readFileBytes (diskWith [104, 105]))
          hydrated) := by
  have hi : ObjectIntact spelledHash (diskWith [104, 105]) ⟨"hi", 2⟩ := by
    intro object ho
    cases (diskWith_lookup [104, 105]).symm.trans ho
    decide
  refine ⟨_, hiManifest_hydrates _, ?_⟩
  refine (hydrated_authentic_iff spelledHash id (fun _ => "") verifyingStorage verifyingEnv rfl
    slashRoot acceptingUnpacker ⟨"d0", 2⟩ hiManifest (hiManifest_hydrates [104, 105])).mpr
    (fun _ => ⟨?_, ?_, ?_⟩)
  · simpa [hiManifest] using hi
  · simp [hiManifest]
  · simpa [hiManifest] using hi

end Moon.Proofs
