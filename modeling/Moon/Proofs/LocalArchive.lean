import Moon.Proofs.LocalStorage

/-! # Archiving in the local storage and restoring from it -/

namespace Moon.Proofs
open Lib List Manifest CasObjects LocalStorage

variable {manifest' : Manifest} {d : Digest}

section

variable {storage : LocalStorage} {sha256 : StoredManifest → String}
  {env : StorageEnv LocalDisk} {c : String → Bytes} {hashes : List String}
  {s t t' : LocalDisk}

/-- What storing blobs does to a disk: objects that were there stay as they are, and a new
one has the content of its hash. -/
structure Stored (content : String → Bytes) (hashes : List String) (s t : LocalDisk) :
    Prop where
  manifests : t.manifests = s.manifests
  files : t.files = s.files
  kept : ∀ hash object, s.blobs.lookup hash = some object → t.blobs.lookup hash = some object
  added : ∀ hash object, t.blobs.lookup hash = some object → s.blobs.lookup hash = none →
    hash ∈ hashes ∧ object.content = content hash

lemma Stored.refl (c : String → Bytes) (hashes : List String) (s : LocalDisk) :
    Stored c hashes s s where
  manifests := rfl
  files := rfl
  kept _ _ h := h
  added hash o hs hn := by
    rw [hn] at hs
    cases hs

lemma Stored.write (h : Stored c hashes s t) {hash : String} (hh : hash ∈ hashes)
    (hnw : s.blobs.lookup hash = none) (now : SystemTime) :
    Stored c hashes s { t with blobs := t.blobs.write hash (c hash) now } where
  manifests := h.manifests
  files := h.files
  kept other o ho := by
    have hne : other ≠ hash := by
      intro heq
      rw [heq, hnw] at ho
      cases ho
    exact (Finmap.lookup_insert_of_ne _ hne).trans (h.kept other o ho)
  added other o ho hn := by
    have hl : (t.blobs.write hash (c hash) now).lookup other =
        if other = hash then some ⟨c hash, now⟩ else t.blobs.lookup other :=
      Map.lookup_insert_eq t.blobs hash other _
    rw [hl] at ho
    by_cases heq : other = hash
    · rw [if_pos heq] at ho
      cases ho
      rw [heq]
      exact ⟨hh, rfl⟩
    · rw [if_neg heq] at ho
      exact h.added other o ho hn

lemma Stored.readBytes (h : Stored c hashes s t) {b : BlobContent} {bytes : Bytes}
    (hr : b.readBytes (storage.readFileBytes s) = .ok bytes) :
    b.readBytes (storage.readFileBytes t) = .ok bytes := by
  cases b with
  | inline inlined => exact hr
  | file path =>
    simp only [BlobContent.readBytes, readFileBytes] at hr ⊢
    cases hp : storage.blobs.hashOfPath path with
    | none =>
      rw [hp] at hr
      rw [h.files]
      exact hr
    | some hash =>
      rw [hp] at hr
      dsimp only at hr ⊢
      cases ho : s.blobs.lookup hash with
      | none =>
        rw [ho] at hr
        cases hr
      | some o =>
        rw [ho] at hr
        rw [h.kept hash o ho]
        exact hr

def NewInput (storage : LocalStorage) (content : String → Bytes) (hashes : List String)
    (s : LocalDisk) (input : BlobInput) : Prop :=
  input.digest.hash ∈ hashes ∧ s.blobs.lookup input.digest.hash = none ∧
    input.content.readBytes (storage.readFileBytes s) = .ok (content input.digest.hash)

variable {r : Except StorageError (List Digest)} {ins : List BlobInput}

lemma storeBlobs_stored (hi : ∀ i ∈ ins, NewInput storage c hashes s i)
    (h : (storage.storeBlobs ins).run t = (r, t')) (ht : Stored c hashes s t) :
    Stored c hashes s t' := by
  induction ins generalizing t t' r with
  | nil =>
    obtain ⟨_, rfl⟩ := run_pure h
    exact ht
  | cons i ins ih =>
    obtain ⟨hh, hn, hr⟩ := hi i mem_cons_self
    have hb := run_get_bind h
    rw [ht.readBytes hr] at hb
    obtain ⟨_, u, hs, hb⟩ := run_bind hb
    cases hs
    obtain ⟨a, v, hrs, hen⟩ := run_bind hb
    have hv := ih (fun o ho => hi o (mem_cons_of_mem _ ho)) hrs (ht.write hh hn t.now)
    cases a with
    | error | ok =>
      obtain ⟨_, rfl⟩ := run_pure hen
      exact hv

lemma storeBlobs_present (h : (storage.storeBlobs ins).run s = (r, t)) :
    (∀ hash ∈ s.blobs, hash ∈ t.blobs) ∧ ∀ stored, r = .ok stored →
      stored = ins.map BlobInput.digest ∧ ∀ i ∈ ins, i.digest.hash ∈ t.blobs := by
  induction ins generalizing s t r with
  | nil =>
    obtain ⟨rfl, rfl⟩ := run_pure h
    refine ⟨fun _ hm => hm, fun stored hs => ?_⟩
    cases hs
    simp
  | cons i ins ih =>
    have hb := run_get_bind h
    cases hr : i.content.readBytes (storage.readFileBytes s) with
    | error error =>
      rw [hr] at hb
      obtain ⟨rfl, rfl⟩ := run_pure hb
      exact ⟨fun _ hm => hm, fun stored hs => nomatch hs⟩
    | ok bytes =>
      rw [hr] at hb
      obtain ⟨_, u, hst, hb⟩ := run_bind hb
      cases hst
      obtain ⟨a, v, hrs, hen⟩ := run_bind hb
      obtain ⟨hk, hs⟩ := ih hrs
      have hw : ∀ hash, hash = i.digest.hash ∨ hash ∈ s.blobs → hash ∈ v.blobs :=
        fun hash hm => hk hash (Finmap.mem_insert.mpr hm)
      cases a with
      | error error =>
        obtain ⟨rfl, rfl⟩ := run_pure hen
        exact ⟨fun hash hm => hw hash (.inr hm), fun stored hs => nomatch hs⟩
      | ok digests =>
        obtain ⟨rfl, rfl⟩ := run_pure hen
        refine ⟨fun hash hm => hw hash (.inr hm), fun stored heq => ?_⟩
        cases heq
        obtain ⟨rfl, ha⟩ := hs digests rfl
        refine ⟨rfl, fun o ho => ?_⟩
        cases mem_cons.mp ho with
        | inl heq => exact hw _ (.inl (heq ▸ rfl))
        | inr hm => exact ha o hm

lemma local_truthful (storage : LocalStorage) (sha256 : StoredManifest → String) :
    Truthful (storage.backend sha256) (fun disk d => d.hash ∈ disk.blobs) where
  find_keeps h _ hp := by
    cases h
    exact hp
  find_reports h d hd hm := by
    cases h
    by_contra ha
    exact hm (mem_filter.mpr ⟨hd, by simp [containsObject, ha]⟩)
  store_keeps h d hp := (storeBlobs_present h).1 d.hash hp
  store_reports h := by
    obtain ⟨rfl, hal⟩ := (storeBlobs_present h).2 _ rfl
    refine ⟨List.Subperm.refl _, fun d hd => ?_⟩
    obtain ⟨i, hi, rfl⟩ := mem_map.mp hd
    exact hal i hi

lemma local_findMissingInBatches {bs : List (Batch Digest)}
    (h : ((storage.backend sha256).findMissingInBatches bs).run s = (r, t)) :
    t = s ∧ ∀ missing, r = .ok missing → ∀ d ∈ missing, s.blobs.lookup d.hash = none := by
  induction bs generalizing r t with
  | nil =>
    obtain ⟨rfl, rfl⟩ := run_pure h
    refine ⟨rfl, fun missing hm d hd => ?_⟩
    cases hm
    cases hd
  | cons batch bs ih =>
    obtain ⟨a, u, hf, hb⟩ := run_bind h
    cases hf
    obtain ⟨a, v, hr, hen⟩ := run_bind hb
    obtain ⟨hv, hm⟩ := ih hr
    cases a with
    | error error =>
      obtain ⟨rfl, rfl⟩ := run_pure hen
      exact ⟨hv, fun missing heq => nomatch heq⟩
    | ok others =>
      obtain ⟨rfl, rfl⟩ := run_pure hen
      refine ⟨hv, fun missing heq d hd => ?_⟩
      cases heq
      cases mem_append.mp hd with
      | inl hh =>
        obtain ⟨_, ha⟩ := mem_filter.mp hh
        simpa [containsObject, Finmap.lookup_eq_none] using ha
      | inr hr => exact hm others rfl d hr

/-- Each input can be read, and has the content of its hash. -/
def Readable (storage : LocalStorage) (content : String → Bytes) (s : LocalDisk)
    (inputs : List BlobInput) : Prop :=
  ∀ input ∈ inputs,
    input.content.readBytes (storage.readFileBytes s) = .ok (content input.digest.hash)

def inputHashes (inputs : List BlobInput) : List String :=
  inputs.map (fun input => input.digest.hash)

lemma storeBlobsBatched_stored {r : StoreResult} (hin : Readable storage c s ins)
    (h : ((storage.backend sha256).storeBlobsBatched env.schedule ins).run s = (r, t)) :
    Stored c (inputHashes ins) s t := by
  obtain ⟨a, u, hf, hrs⟩ := run_bind h
  obtain ⟨hu, hms⟩ := local_findMissingInBatches (run_get_bind hf)
  subst hu
  have hr := Stored.refl c (inputHashes ins) u
  cases a with
  | error error =>
    obtain ⟨_, rfl⟩ := run_pure hrs
    exact hr
  | ok missing =>
    cases missing with
    | nil =>
      obtain ⟨_, rfl⟩ := run_pure hrs
      exact hr
    | cons first missing =>
      refine storeMissingBlobs_keeps (I := Stored c (inputHashes ins) u)
        (fun items stream hitm {v a w} hs hv => ?_) hrs hr
      refine storeBlobs_stored (fun i hi => ?_) hs hv
      obtain ⟨hrt, hl⟩ := hitm i hi
      have hm : i ∈ ins := (retainUnseen_sublist [] ins).subset hrt
      exact ⟨mem_map_of_mem hm, hms _ rfl _ hl, hin i hm⟩

lemma storeManifestBlobs_stored {root : WorkspaceRoot} {m : Manifest}
    (hin : Readable storage c s (m.collectBlobInputs root))
    (h : (storeManifestBlobs env root (storage.backend sha256) m).run s = (some manifest', t)) :
    Stored c (inputHashes (m.collectBlobInputs root)) s t ∧
      (∀ i ∈ m.collectBlobInputs root, i.digest.hash ∈ t.blobs) ∧
      ∃ st co, manifest' = { m with
        uploadStartedAt := st
        uploadCompletedAt := co } := by
  unfold storeManifestBlobs at h
  dsimp only at h
  by_cases hem : (m.collectBlobInputs root).isEmpty
  · rw [if_pos hem] at h
    obtain ⟨heq, rfl⟩ := run_pure h
    cases heq
    refine ⟨Stored.refl _ _ _, ?_, _, _, rfl⟩
    rw [isEmpty_iff.mp hem]
    simp
  · rw [if_neg hem] at h
    obtain ⟨r, u, hs, hr⟩ := run_bind (run_get_bind h)
    have hen := run_get_bind hr
    split at hen
    · rename_i hsc
      obtain ⟨heq, rfl⟩ := run_pure hen
      cases heq
      refine ⟨storeBlobsBatched_stored hin hs, fun i hi => ?_, _, _, rfl⟩
      exact storeBlobsBatched_success (local_truthful storage sha256) hs hsc _ (mem_map_of_mem hi)
    · cases (run_pure hen).1

/-- A blob that is already stored is not written again. -/
def contentAfter (content : String → Bytes) (inputs : List BlobInput) (s : LocalDisk)
    (hash : String) : Option Bytes :=
  match s.blobs.lookup hash with
  | some o => some o.content
  | none => if hash ∈ inputHashes inputs then some (content hash) else none

lemma Stored.content_eq (h : Stored c (inputHashes ins) s t)
    (hal : ∀ i ∈ ins, i.digest.hash ∈ t.blobs) (hash : String) :
    (t.blobs.lookup hash).map CasObject.content = contentAfter c ins s hash := by
  unfold contentAfter
  cases ho : s.blobs.lookup hash with
  | some o => rw [h.kept hash o ho, Option.map_some]
  | none =>
    dsimp only
    cases hn : t.blobs.lookup hash with
    | some o =>
      obtain ⟨hm, hc⟩ := h.added hash o hn ho
      rw [if_pos hm, Option.map_some, hc]
    | none =>
      have ha : hash ∉ inputHashes ins := by
        intro hm
        obtain ⟨i, hi, rfl⟩ := mem_map.mp hm
        exact Finmap.lookup_eq_none.mp hn (hal i hi)
      rw [if_neg ha, Option.map_none]

/-- A manifest that is already stored is kept. -/
def manifestAfter (s : LocalDisk) (digest : Digest) (manifest : Manifest) : Option Manifest :=
  match s.manifests.lookup digest.hash with
  | none => if manifest.isSerializable then some manifest else none
  | some ⟨.json stored, _⟩ => some stored
  | some ⟨.unparseable, _⟩ => none

lemma serialized_serialized (m : Manifest) : m.serialized.serialized = m.serialized := by
  simp only [serialized, map_map]
  rfl

lemma retrieveManifest_json (storage : LocalStorage) (sha256 : StoredManifest → String)
    {st : Manifest} {mo : SystemTime}
    (h : t.manifests.lookup d.hash = some ⟨.json st, mo⟩) :
    ∃ t', (storage.retrieveManifest sha256 d).run t = (.ok (some st.serialized), t') ∧
      t'.blobs = t.blobs ∧ t'.files = t.files := by
  have hm : d.hash ∈ t.manifests := Finmap.mem_iff.mpr ⟨_, h⟩
  have hr : storage.manifests.read sha256 t.manifests d.hash = .ok (.json st) := by
    simp [CasStore.read, h, storage.manifests_unverified]
  refine ⟨{ t with manifests := t.manifests.touch d.hash t.now }, ?_, rfl, rfl⟩
  simp [retrieveManifest, StateT.run, containsObject, hm, hr]

lemma alone_loadManifest {root : WorkspaceRoot} {a : Except StorageError (Option Manifest)}
    (h : (storage.retrieveManifest sha256 d).run t = (a, t')) :
    ((storage.alone sha256 root).loadManifest d).run t =
      (a.map (Option.map (fun f => ⟨storage.backend sha256, f, false⟩)), t') := by
  change (Storage.loadManifestFrom _ d [storage.backend sha256]).run t = _
  unfold Storage.loadManifestFrom
  change ((storage.retrieveManifest sha256 d) >>= _).run t = _
  rw [run_bind_of _ h]
  cases a with
  | error error => rfl
  | ok f => cases f <;> rfl

lemma load_after_store (storage : LocalStorage) (sha256 : StoredManifest → String)
    (root : WorkspaceRoot) (d : Digest) (m : Manifest) (hmn : t.manifests = s.manifests) :
    let load := ((storage.alone sha256 root).loadManifest d).run ((storeManifest d m).run t).2
    match manifestAfter s d m with
    | none => ∀ l, load.1 ≠ .ok (some l)
    | some l => ∃ t', load = (.ok (some ⟨storage.backend sha256, l.serialized, false⟩), t') ∧
        t'.blobs = t.blobs ∧ t'.files = t.files := by
  unfold manifestAfter storeManifest
  rw [← hmn]
  cases hs : t.manifests.lookup d.hash with
  | none =>
    have ha : d.hash ∉ t.manifests := Finmap.lookup_eq_none.mp hs
    by_cases ht : m.isSerializable
    · simp only [StateT.run, containsObject, ha, decide_false, ht,
        Bool.not_true, Bool.false_eq_true, if_false, if_true]
      have hw : (t.manifests.write d.hash (.json m.serialized) t.now).lookup
          d.hash = some ⟨.json m.serialized, t.now⟩ := Finmap.lookup_insert _
      obtain ⟨t', hr, hb, hf⟩ := retrieveManifest_json storage sha256 hw
        (t := { t with
          manifests := t.manifests.write d.hash (.json m.serialized) t.now })
      rw [serialized_serialized] at hr
      exact ⟨t', alone_loadManifest hr, hb, hf⟩
    · simp only [StateT.run, containsObject, ha, decide_false, ht,
        Bool.not_false, Bool.false_eq_true, if_false, if_true]
      have hr : (storage.retrieveManifest sha256 d).run t = (.ok none, t) := by
        simp [retrieveManifest, StateT.run, containsObject, ha]
      intro l hl
      have hn : (((storage.alone sha256 root).loadManifest d).run t).1 = .ok none :=
        congrArg Prod.fst (alone_loadManifest hr)
      cases hn.symm.trans hl
  | some o =>
    have hm : d.hash ∈ t.manifests := Finmap.mem_iff.mpr ⟨_, hs⟩
    simp only [StateT.run, containsObject, hm, decide_true, if_true]
    obtain ⟨text, modified⟩ := o
    cases text with
    | json stored =>
      obtain ⟨t', hr, hb, hf⟩ := retrieveManifest_json storage sha256 hs
      exact ⟨t', alone_loadManifest hr, hb, hf⟩
    | unparseable =>
      have hrd : storage.manifests.read sha256 t.manifests d.hash = .ok .unparseable := by
        simp [CasStore.read, hs, storage.manifests_unverified]
      have hr : (storage.retrieveManifest sha256 d).run t =
          (.error ⟨"expected value at line 1 column 1"⟩, t) := by
        simp [retrieveManifest, StateT.run, containsObject, hm, hrd]
      intro l hl
      have her : (((storage.alone sha256 root).loadManifest d).run t).1 =
          .error ⟨"expected value at line 1 column 1"⟩ :=
        congrArg Prod.fst (alone_loadManifest hr)
      cases her.symm.trans hl

end

section

variable {storage : LocalStorage} {sha256 : StoredManifest → String}
  {env : StorageEnv LocalDisk} {root : WorkspaceRoot} {c : String → Bytes}
  {s t : LocalDisk} {a : String → Option Bytes} {m l : Manifest}

def writtenFile (readFileBytes : PathBuf → Except StorageError Bytes) (file : ManifestFile) :
    ManifestFile × Option (Except StorageError Bytes) :=
  (file.serialized, file.digest.map (fun _ => file.outputBytes readFileBytes))

def archivedFile (root : WorkspaceRoot) (readFileBytes : PathBuf → Except StorageError Bytes)
    (file : ManifestFile) : ManifestFile × Option (Except StorageError Bytes) :=
  (file.serialized,
    file.digest.map (fun digest => (file.blobContent root digest).readBytes readFileBytes))

/-- Hydrating gives back the outputs as they were archived. -/
structure RoundTrip (storage : LocalStorage) (root : WorkspaceRoot) (s : LocalDisk)
    (manifest : Manifest) (t : LocalDisk) (hydrated : Manifest) : Prop where
  complete : hydrated.isHydrated = true
  files : hydrated.files.map (writtenFile (storage.readFileBytes t)) =
    manifest.files.map (archivedFile root (storage.readFileBytes s))
  symlinks : hydrated.symlinks = manifest.symlinks
  exitCode : hydrated.exitCode = manifest.exitCode
  stderr : hydrated.stderrBytes.getD [] = manifest.stderrBytes.getD []
  stdout : hydrated.stdoutBytes.getD [] = manifest.stdoutBytes.getD []

structure StreamRestored (after : String → Option Bytes) (recorded : Option Digest)
    (bytes : Option Bytes) : Prop where
  resolvable : ∀ digest, recorded = some digest → Resolvable after digest
  same : (recorded.bind (found after)).getD [] = bytes.getD []

/-- What is loaded restores each output of the manifest. -/
structure Restorable (content : String → Bytes) (after : String → Option Bytes)
    (manifest loaded : Manifest) : Prop where
  files : loaded.files.map ManifestFile.serialized = manifest.files.map ManifestFile.serialized
  contents : ∀ file ∈ manifest.files, ∀ digest, file.digest = some digest →
    Resolvable after digest ∧ (found after digest).getD [] = content digest.hash
  symlinks : loaded.symlinks = manifest.symlinks
  exitCode : loaded.exitCode = manifest.exitCode
  stderr : StreamRestored after loaded.stderrDigest manifest.stderrBytes
  stdout : StreamRestored after loaded.stdoutDigest manifest.stdoutBytes

def foundFile (after : String → Option Bytes) (file : ManifestFile) :
    ManifestFile × Option (Except StorageError Bytes) :=
  (file.serialized, file.digest.map (fun digest => .ok ((found after digest).getD [])))

lemma writtenFile_carried (ha : ∀ hash, (t.blobs.lookup hash).map CasObject.content = a hash)
    (f : ManifestFile) :
    writtenFile (storage.readFileBytes t)
      (carried (positive (localHeld storage t)) f.serialized) = foundFile a f := by
  obtain ⟨hs, hb, _⟩ := carried_found storage ha f
  have hd := (carried_same (positive (localHeld storage t)) f.serialized).2
  refine Prod.ext hs ?_
  change Option.map _ (carried _ f.serialized).digest = Option.map _ f.digest
  rw [hd, show f.serialized.digest = f.digest from rfl]
  cases hr : f.digest with
  | none => rfl
  | some d => rw [Option.map_some, Option.map_some, hb d hr]

lemma files_restored_iff
    (hrd : ∀ f ∈ m.files, ∀ d, f.digest = some d →
      (f.blobContent root d).readBytes (storage.readFileBytes s) = .ok (c d.hash)) :
    l.files.map (foundFile a) = m.files.map (archivedFile root (storage.readFileBytes s)) ↔
      l.files.map ManifestFile.serialized = m.files.map ManifestFile.serialized ∧
        ∀ f ∈ m.files, ∀ d, f.digest = some d → (found a d).getD [] = c d.hash := by
  have hp : ∀ f ∈ m.files,
      foundFile a f = archivedFile root (storage.readFileBytes s) f ↔ ∀ d, f.digest = some d →
          (found a d).getD [] = c d.hash := by
    intro f hfl
    unfold foundFile archivedFile
    cases hd : f.digest with
    | none => simp
    | some d => simp [hrd f hfl d hd]
  -- a file is found by what is recorded of it, so lists that are recorded alike are found alike
  have hfd : ∀ fs : List ManifestFile, fs.map (foundFile a) =
      (fs.map ManifestFile.serialized).map (foundFile a) := by
    intro fs
    rw [map_map]
    rfl
  constructor
  · intro heq
    have hr : l.files.map ManifestFile.serialized = m.files.map ManifestFile.serialized := by
      have hf := congrArg (map Prod.fst) heq
      rw [map_map, map_map] at hf
      exact hf
    refine ⟨hr, fun f hfl => ?_⟩
    rw [hfd, hr, ← hfd] at heq
    exact (hp f hfl).mp (map_inj_left.mp heq f hfl)
  · intro ⟨hr, hc⟩
    rw [hfd, hr, ← hfd]
    exact map_congr_left (fun f hfl => (hp f hfl).mpr (hc f hfl))

lemma roundTrip_restored_iff (ha : ∀ hash, (t.blobs.lookup hash).map CasObject.content = a hash)
    (hrd : ∀ f ∈ m.files, ∀ d, f.digest = some d →
      (f.blobContent root d).readBytes (storage.readFileBytes s) = .ok (c d.hash)) :
    RoundTrip storage root s m t (restored storage t l.serialized) ↔ Restorable c a m l := by
  have hf : (restored storage t l.serialized).files.map
      (writtenFile (storage.readFileBytes t)) = l.files.map (foundFile a) := by
    simp only [restored, serialized, map_map]
    exact map_congr_left (fun f _ => writtenFile_carried ha f)
  have her : (restored storage t l.serialized).stderrBytes =
      l.stderrDigest.bind (found a) := filledStdio_found storage ha _
  have ho : (restored storage t l.serialized).stdoutBytes =
      l.stdoutDigest.bind (found a) := filledStdio_found storage ha _
  have hh : (restored storage t l.serialized).isHydrated ↔
      (∀ d, l.stderrDigest = some d → Resolvable a d) ∧
      (∀ d, l.stdoutDigest = some d → Resolvable a d) ∧
      ∀ f ∈ l.files, ∀ d, f.digest = some d → Resolvable a d := by
    rw [isHydrated_iff, her, ho]
    refine and_congr (resolved_found_iff _) (and_congr (resolved_found_iff _) ?_)
    simp only [restored, serialized, forall_mem_map]
    exact forall₂_congr (fun f _ => (carried_found storage ha f).2.2)
  have hdg : l.files.map ManifestFile.serialized =
      m.files.map ManifestFile.serialized →
      ((∀ f ∈ l.files, ∀ d, f.digest = some d → Resolvable a d) ↔
        ∀ f ∈ m.files, ∀ d, f.digest = some d → Resolvable a d) := by
    intro heq
    have hs := congrArg (map ManifestFile.digest) heq
    rw [map_map, map_map] at hs
    change l.files.map ManifestFile.digest = m.files.map ManifestFile.digest at hs
    rw [← forall_mem_map (P := fun r => ∀ d, r = some d → Resolvable a d), hs, forall_mem_map]
  constructor
  · intro h
    obtain ⟨hr₁, hr₂, hrs⟩ := hh.mp h.complete
    obtain ⟨hr, hc⟩ := (files_restored_iff hrd).mp (hf ▸ h.files)
    exact {
      files := hr
      contents := fun f hfl d hd =>
        ⟨(hdg hr).mp hrs f hfl d hd, hc f hfl d hd⟩
      symlinks := h.symlinks
      exitCode := h.exitCode
      stderr := ⟨hr₁, her ▸ h.stderr⟩
      stdout := ⟨hr₂, ho ▸ h.stdout⟩ }
  · intro h
    refine ⟨hh.mpr ⟨h.stderr.resolvable, h.stdout.resolvable, ?_⟩, ?_, h.symlinks,
      h.exitCode, her ▸ h.stderr.same, ho ▸ h.stdout.same⟩
    · exact (hdg h.files).mpr (fun f hfl d hd => (h.contents f hfl d hd).1)
    · rw [hf]
      exact (files_restored_iff hrd).mpr ⟨h.files, fun f hfl d hd => (h.contents f hfl d hd).2⟩

lemma load_roundTrip_iff (hen : LocalEnv storage env) (d : Digest) (st : Manifest)
    (hm : t.manifests = s.manifests)
    (ha : ∀ hash, (t.blobs.lookup hash).map CasObject.content = a hash)
    (hrd : ∀ file ∈ m.files, ∀ r, file.digest = some r →
      (file.blobContent root r).readBytes (storage.readFileBytes s) = .ok (c r.hash)) :
    (∃ l t₁ hydrated tasks t₂, ((storage.alone sha256 root).loadManifest d).run
        ((storeManifest d st).run t).2 = (.ok (some l), t₁) ∧
      ((storage.alone sha256 root).hydrateManifest env d l).run t₁ =
        (.ok (some hydrated, tasks), t₂) ∧
      RoundTrip storage root s m t₂ hydrated) ↔
    ∃ l, manifestAfter s d st = some l ∧ Restorable c a m l := by
  have hl := load_after_store storage sha256 root d st hm
  cases hs : manifestAfter s d st with
  | none =>
    rw [hs] at hl
    constructor
    · intro ⟨l, t₁, _, _, _, ho, _⟩
      exact absurd (congrArg Prod.fst ho) (hl l)
    · intro ⟨l, hld, _⟩
      cases hld
  | some l =>
    rw [hs] at hl
    obtain ⟨t₁, hl, hb, _⟩ := hl
    have hh : ((storage.alone sha256 root).hydrateManifest env d
        ⟨storage.backend sha256, l.serialized, false⟩).run t₁ = _ :=
      alone_hydrateManifest hen d l.serialized t₁
    have hi : RoundTrip storage root s m t₁ (restored storage t₁ l.serialized) ↔
        Restorable c a m l :=
      roundTrip_restored_iff (fun hash => by rw [hb, ha]) hrd
    constructor
    · intro ⟨f, t₁', hydrated, tasks, t₂, hf, hr, ht⟩
      cases hl.symm.trans hf
      rw [hh] at hr
      split at hr
      · cases hr
        exact ⟨l, rfl, hi.mp ht⟩
      · cases hr
    · intro ⟨f, hf, hrs⟩
      cases hf
      have ht := hi.mpr hrs
      rw [if_pos ht.complete] at hh
      exact ⟨_, t₁, _, [], t₁, hl, hh, ht⟩

end

/-- An archived manifest is restored as it was exactly if the manifest that its key names
after archiving describes it, and the objects that were there already have its contents. -/
theorem archived_restored_iff (storage : LocalStorage) (sha256 : StoredManifest → String)
    (env : StorageEnv LocalDisk) (henv : LocalEnv storage env) (root : WorkspaceRoot)
    (digest : Digest) (manifest : Manifest) (content : String → Bytes) (s : LocalDisk)
    (hread : Readable storage content s (manifest.collectBlobInputs root)) {t : LocalDisk}
    {startedAt completedAt : Option SystemTime}
    (hstored : (storeManifestBlobs env root (storage.backend sha256) manifest).run s =
      (some (uploaded manifest startedAt completedAt), t)) : (∃ loaded t₁ hydrated tasks t₂,
      ((storage.alone sha256 root).loadManifest digest).run
        ((persistManifestInBackend env root ⟨storage.backend sha256, digest, manifest⟩).run s).2 =
          (.ok (some loaded), t₁) ∧
      ((storage.alone sha256 root).hydrateManifest env digest loaded).run t₁ =
        (.ok (some hydrated, tasks), t₂) ∧
      RoundTrip storage root s manifest t₂ hydrated) ↔
    ∃ loaded, manifestAfter s digest (uploaded manifest startedAt completedAt) = some loaded ∧
      Restorable content (contentAfter content (manifest.collectBlobInputs root) s) manifest
        loaded := by
  obtain ⟨hb, ha, _⟩ := storeManifestBlobs_stored hread hstored
  have hf : ∀ f ∈ manifest.files, ∀ r, f.digest = some r →
      (f.blobContent root r).readBytes (storage.readFileBytes s) = .ok (content r.hash) := by
    intro f hfl r hr
    refine hread ⟨f.blobContent root r, r⟩ ?_
    simp only [collectBlobInputs, mem_append, mem_filterMap]
    exact .inl (.inl (.inr ⟨f, hfl, by simp [ManifestFile.blobInput, hr]⟩))
  rw [persistManifestInBackend_run, hstored]
  exact load_roundTrip_iff henv digest _ hb.manifests (hb.content_eq ha) hf

def printedHi : Manifest where
  stdoutBytes := some [104, 105]
  stdoutDigest := some ⟨"hi", 2⟩

def printedYo : Manifest where
  stdoutDigest := some ⟨"yo", 2⟩

def emptyDisk : LocalDisk where
  blobs := ∅
  manifests := ∅
  files := ∅
  now := 0

def staleDisk (text : StoredManifest) : LocalDisk :=
  { emptyDisk with manifests := CasObjects.write ∅ "d0" text 0 }

/-- An older manifest stays in the place of the archived one. If it cannot be parsed, loading fails,
and without its blobs nothing is hydrated. -/
theorem stale_manifest_shadows_archived : ((∃ stored t, (storeManifestBlobs verifyingEnv slashRoot
        (verifyingStorage.backend (fun _ => "")) printedHi).run (staleDisk .unparseable) =
          (some stored, t)) ∧
      (((verifyingStorage.alone (fun _ => "") slashRoot).loadManifest ⟨"d0", 2⟩).run
        ((persistManifestInBackend verifyingEnv slashRoot
          ⟨verifyingStorage.backend (fun _ => ""), ⟨"d0", 2⟩, printedHi⟩).run
            (staleDisk .unparseable)).2).1.isOk = false) ∧
    (∃ stored t, (storeManifestBlobs verifyingEnv slashRoot
        (verifyingStorage.backend (fun _ => "")) printedHi).run (staleDisk (.json printedYo)) =
          (some stored, t)) ∧
      ∃ loaded t₁, ((verifyingStorage.alone (fun _ => "") slashRoot).loadManifest
          ⟨"d0", 2⟩).run ((persistManifestInBackend verifyingEnv slashRoot
            ⟨verifyingStorage.backend (fun _ => ""), ⟨"d0", 2⟩, printedHi⟩).run
              (staleDisk (.json printedYo))).2 = (.ok (some loaded), t₁) ∧
        (((verifyingStorage.alone (fun _ => "") slashRoot).hydrateManifest verifyingEnv
          ⟨"d0", 2⟩ loaded).run t₁).1 = .ok (none, []) := by
  refine ⟨⟨⟨_, _, rfl⟩, ?_⟩, ⟨_, _, rfl⟩, _, _, rfl, ?_⟩
  · decide +kernel
  · rfl

/-- The output `hi` of an older run is stored already, and its manifest under another key. -/
def builtDisk : LocalDisk where
  blobs := CasObjects.write ∅ "hi" [104, 105] 0
  manifests := CasObjects.write ∅ "d1" (.json printedHi) 0
  files := Finmap.insert ⟨true, [.normal "bin"]⟩ [121, 111] ∅
  now := 0

def builtBin : Manifest :=
  { printedHi with files := [{ path := ⟨["bin"]⟩, digest := some ⟨"yo", 2⟩ }] }

theorem built_bin_archived_restored : ∃ loaded t₁ hydrated tasks t₂,
      ((verifyingStorage.alone (fun _ => "") slashRoot).loadManifest ⟨"d0", 2⟩).run
        ((persistManifestInBackend verifyingEnv slashRoot
          ⟨verifyingStorage.backend (fun _ => ""), ⟨"d0", 2⟩, builtBin⟩).run builtDisk).2 =
          (.ok (some loaded), t₁) ∧
      ((verifyingStorage.alone (fun _ => "") slashRoot).hydrateManifest verifyingEnv
        ⟨"d0", 2⟩ loaded).run t₁ = (.ok (some hydrated, tasks), t₂) ∧
      RoundTrip verifyingStorage slashRoot builtDisk builtBin t₂ hydrated := by
  let content (hash : String) : Bytes := if hash = "hi" then [104, 105] else [121, 111]
  have hr : Readable verifyingStorage content builtDisk (builtBin.collectBlobInputs slashRoot) := by
    intro i hi
    rcases mem_pair.mp hi with rfl | rfl
    · rfl
    · rfl
  have hi : contentAfter content (builtBin.collectBlobInputs slashRoot) builtDisk "hi" =
      some [104, 105] := by decide
  have hy : contentAfter content (builtBin.collectBlobInputs slashRoot) builtDisk "yo" =
      some [121, 111] := by decide
  have hs : ∃ t, (storeManifestBlobs verifyingEnv slashRoot
      (verifyingStorage.backend (fun _ => "")) builtBin).run builtDisk =
        (some (uploaded builtBin (some 0) (some 0)), t) := ⟨_, rfl⟩
  obtain ⟨t, hs⟩ := hs
  refine (archived_restored_iff verifyingStorage (fun _ => "") verifyingEnv
    ⟨rfl, fun _ => rfl⟩ slashRoot ⟨"d0", 2⟩ builtBin content builtDisk hr hs).mpr ⟨_, rfl, ?_⟩
  exact {
    files := rfl
    contents := by
      intro f hf d hd
      cases mem_singleton.mp hf
      cases hd
      simp [Resolvable, found, hy, content]
    symlinks := rfl
    exitCode := rfl
    stderr := ⟨fun d hd => (nomatch hd), rfl⟩
    stdout := by
      refine ⟨fun d hd => ?_, ?_⟩
      · cases hd
        simp [Resolvable, found, hi]
      · change (found _ ⟨"hi", 2⟩).getD [] = [104, 105]
        simp [found, hi] }

end Moon.Proofs
