import Moon.OutputArchiver
import Moon.Proofs.ActionResult
import Moon.Proofs.LocalStorage
import Moon.Proofs.Path

/-! # Archiving through the daemon -/

namespace Moon.Proofs
open Lib List Manifest OutputArchiver Component ManifestPacker ManifestSymlink

variable {d : Digest} {b : Option Bytes} {r : Option Digest} {time : Option SystemTime}

section

/-- The path has no `.` or `..`. -/
def NamesOnly (path : PathBuf) : Prop :=
  ∀ component ∈ path.components, ∃ name, component = .normal name ∧
    Component.ofSegment name = some (.normal name)

lemma dropShared_append (b r : List Component) : dropShared (b ++ r) b = (r, []) := by
  induction b with
  | nil => cases r <;> rfl
  | cons component b ih => simp [dropShared, ih]

lemma filterMap_ofSegment_asStr {cs : List Component}
    (h : ∀ co ∈ cs, ∃ n, co = .normal n ∧ ofSegment n = some (.normal n)) :
    (cs.map asStr).filterMap ofSegment = cs := by
  induction cs with
  | nil => rfl
  | cons co cs ih =>
    obtain ⟨n, rfl, hn⟩ := h co mem_cons_self
    have hr := ih (fun c hc => h c (mem_cons_of_mem _ hc))
    rw [map_cons, asStr, filterMap_cons_some hn, hr]

lemma components_relativeTo {b r : List Component}
    (h : ∀ c ∈ r, ∃ n, c = .normal n ∧ ofSegment n = some (.normal n)) (f : Bool) :
    (PathBuf.relativeTo ⟨f, b ++ r⟩ ⟨f, b⟩).components = r := by
  unfold PathBuf.relativeTo
  simp only [dropShared_append, length_nil, replicate_zero, nil_append]
  have hs := filterMap_ofSegment_asStr h
  split
  · rename_i hem
    rw [map_eq_nil_iff.mp hem]
    rfl
  · exact hs

/-- Walking a directory of the workspace does not leave it. -/
def WalksBelow (fs : PackFs) (root : WorkspaceRoot) : Prop :=
  ∀ dir, dir.startsWith root.path = true → NamesOnly dir → ∀ file ∈ fs.walkFiles dir,
    file.startsWith root.path = true ∧ NamesOnly file

def Located (root : WorkspaceRoot) (packer : ManifestPacker) : Prop :=
  packer.workspaceRoot = root ∧ ∀ file ∈ packer.manifest.files, ∀ source,
    file.sourcePath = some source → file.path.toLogicalPath root.path = source

variable {sha256 : Bytes → String} {fs : PackFs} {root : WorkspaceRoot}
  {p packer' : ManifestPacker} {a : PathBuf}

lemma located_insertFile (hl : Located root p) (hb : a.startsWith root.path)
    (hnms : NamesOnly a) (h : p.insertFile sha256 fs a = .ok packer') : Located root packer' := by
  obtain ⟨f, hp, rfl⟩ := insertFile_ok h
  refine ⟨hl.1, fun o ho s hs => ?_⟩
  cases mem_append.mp ho with
  | inl hol => exact hl.2 o hol s hs
  | inr hn =>
    rw [mem_singleton] at hn
    subst hn
    cases hp.sourcePath.symm.trans hs
    rw [hp.path, hl.1]
    obtain ⟨⟨fromRoot, b⟩, habs⟩ := root
    obtain ⟨fromRoot', cs⟩ := a
    simp only [PathBuf.startsWith, Bool.and_eq_true, beq_iff_eq, isPrefixOf_iff_prefix] at hb
    obtain ⟨rfl, r, rfl⟩ := hb
    have hr : ∀ c ∈ r, ∃ n, c = .normal n ∧
        ofSegment n = some (.normal n) :=
      fun c hc => hnms c (mem_append_right _ hc)
    have hrsv : Resolved r := by
      intro c hc
      obtain ⟨n, hnm, _⟩ := hr c hc
      exact ⟨n, hnm⟩
    rw [toLogicalPath_eq, components_relativeTo hr, resolveComponents_of_resolved b hrsv]

lemma createCacheManifest_located {os : List PathBuf} {exec : Option ExecOutput} {s : PathBuf}
    {manifest : Manifest} (hw : WalksBelow fs root) (hn : ∀ o ∈ os, NamesOnly o)
    (h : createCacheManifest sha256 fs root os exec d s = .ok manifest) :
    ∀ f ∈ manifest.files, ∀ s, f.sourcePath = some s → f.path.toLogicalPath root.path = s := by
  unfold createCacheManifest at h
  obtain ⟨p, hfld, hpc⟩ := bind_eq_ok h
  have hnw : Located root (new root) := ⟨rfl, fun f hf => (by cases hf)⟩
  have hot : Located root p := by
    refine foldlM_invariant_mem (fun o ho _ _ hp hs => ?_) hnw hfld
    refine inheritOutput_ok hp hs (fun _ => hp) ?_
    intro hb f hf current next hc hnx
    rw [hp.1] at hb
    rcases hf with rfl | hm
    · exact located_insertFile hc hb (hn _ ho) hnx
    · have hf := hw _ hb (hn _ ho) f hm
      exact located_insertFile hc hf.1 hf.2 hnx
  cases hpc
  have hfls : ((p.inheritOperation sha256 exec).inheritSource fs d
      s).pack.files = p.manifest.files := by
    unfold inheritSource pack inheritOperation
    cases exec <;> split <;> rfl
  rw [hfls]
  exact hot.2

end

section

variable {sha256 : Bytes → String} {fs : PackFs} {root : WorkspaceRoot} {manifest : Manifest}

lemma PackedOutput.isContentHash (hs : ∀ c, isContentHash (sha256 c))
    (h : PackedOutput sha256 b r) (d : Digest) (hd : r = some d) : isContentHash d.hash := by
  subst hd
  cases h with
  | inl hn => cases hn.2
  | inr hsm =>
    obtain ⟨o, _, _, heq⟩ := hsm
    cases heq
    exact hs o

lemma PackedManifest.contentHashes (hs : ∀ c, isContentHash (sha256 c))
    (h : PackedManifest sha256 fs root manifest) : ContentHashes manifest where
  files := by
    intro f hf d hd
    obtain ⟨a, hp⟩ := h.files f hf
    obtain ⟨c, _, heq⟩ := hp.digest
    cases hd.symm.trans heq
    exact hs c
  stderr := h.stderr.isContentHash hs
  stdout := h.stdout.isContentHash hs

lemma PackedOutput.delivered (h : PackedOutput sha256 b r) : deliveredBytes b = b := by
  cases h with
  | inl hn => simp [hn.1, deliveredBytes]
  | inr hs =>
    obtain ⟨o, ho, heq, _⟩ := hs
    simp [heq, deliveredBytes, Option.filter, ho]

lemma collectBlobInputs_delivered (hp : PackedManifest sha256 fs root manifest)
    (hl : ∀ f ∈ manifest.files, ∀ s, f.sourcePath = some s → f.path.toLogicalPath root.path = s) :
    (delivered manifest).collectBlobInputs root =
      ({ manifest with digestSource := none } : Manifest).collectBlobInputs root := by
  have hfls : (manifest.files.map deliveredFile).filterMap (ManifestFile.blobInput root) =
      manifest.files.filterMap (ManifestFile.blobInput root) := by
    rw [filterMap_map]
    refine filterMap_congr (fun f hf => ?_)
    obtain ⟨a, hf'⟩ := hp.files f hf
    change (deliveredFile f).blobInput root = f.blobInput root
    unfold ManifestFile.blobInput ManifestFile.blobContent
    simp [deliveredFile, hf'.bytes, hf'.sourcePath, deliveredBytes, hl f hf a hf'.sourcePath]
  simp only [collectBlobInputs, delivered, hfls, hp.stderr.delivered, hp.stdout.delivered]

lemma delivered_intoBazel (hp : PackedManifest sha256 fs root manifest) :
    (delivered manifest).intoBazelActionResult false = manifest.intoBazelActionResult false := by
  have hf : (manifest.files.map deliveredFile).map ManifestFile.intoBazelFile =
      manifest.files.map ManifestFile.intoBazelFile := by
    rw [map_map]
    refine map_congr_left (fun f hfl => ?_)
    obtain ⟨a, hf'⟩ := hp.files f hfl
    simp [ManifestFile.intoBazelFile, deliveredFile, hf'.bytes, deliveredBytes,
      deliveredTime_timestamp]
  have hs : (manifest.symlinks.map deliveredSymlink).map
      intoBazelSymlink = manifest.symlinks.map intoBazelSymlink := by
    rw [map_map]
    refine map_congr_left (fun s _ => ?_)
    simp [intoBazelSymlink, deliveredSymlink, deliveredTime_timestamp]
  simp [intoBazelActionResult, delivered, hf, hs, deliveredTime_timestamp]

lemma deliveredTime_eq (h : ∀ t ∈ time, 0 ≤ t) : deliveredTime time = time := by
  cases time with
  | none => rfl
  | some time => simp [deliveredTime, Option.filter, h time rfl]

lemma nonneg_of_deliveredTime {t : SystemTime} (h : deliveredTime time = some t) : 0 ≤ t := by
  have hf := Option.filter_eq_some_iff.mp h
  simpa using hf.2

lemma delivered_isSerializable (manifest : Manifest) : (delivered manifest).isSerializable := by
  simp only [isSerializable, times, delivered, all_eq_true,
    mem_append, mem_filterMap, mem_map, Option.mem_toList, decide_eq_true_eq]
  intro time ht
  rcases ht with ((hf | hsy) | hs) | hc
  · obtain ⟨_, ⟨f, _, rfl⟩, hm⟩ := hf
    exact nonneg_of_deliveredTime hm
  · obtain ⟨_, ⟨s, _, rfl⟩, hm⟩ := hsy
    exact nonneg_of_deliveredTime hm
  · exact nonneg_of_deliveredTime hs
  · exact nonneg_of_deliveredTime hc

lemma delivered_serialized (h : manifest.isSerializable) :
    (delivered manifest).serialized = manifest.serialized := by
  have htm : ∀ time ∈ manifest.times, 0 ≤ time := by
    intro time hti
    simpa using all_eq_true.mp h time hti
  simp only [times, mem_append, mem_filterMap, Option.mem_toList] at htm
  have hf : (manifest.files.map deliveredFile).map ManifestFile.serialized =
      manifest.files.map ManifestFile.serialized := by
    rw [map_map]
    refine map_congr_left (fun f hfl => ?_)
    have hti : deliveredTime f.modifiedAt = f.modifiedAt :=
      deliveredTime_eq (fun t ht => htm t (.inl (.inl (.inl ⟨f, hfl, ht⟩))))
    simp [deliveredFile, ManifestFile.serialized, hti]
  have hsym : manifest.symlinks.map deliveredSymlink = manifest.symlinks := by
    conv_rhs => rw [← map_id manifest.symlinks]
    refine map_congr_left (fun s hsy => ?_)
    have hti : deliveredTime s.modifiedAt = s.modifiedAt :=
      deliveredTime_eq (fun t ht => htm t (.inl (.inl (.inr ⟨s, hsy, ht⟩))))
    simp [deliveredSymlink, hti]
  have hs : deliveredTime manifest.uploadStartedAt = manifest.uploadStartedAt :=
    deliveredTime_eq (fun t ht => htm t (.inl (.inr ht)))
  have hc : deliveredTime manifest.uploadCompletedAt = manifest.uploadCompletedAt :=
    deliveredTime_eq (fun t ht => htm t (.inr ht))
  simp only [serialized, delivered, hf, hsym, hs, hc]

end

section

variable {σ : Type}

def storedBlobs (root : WorkspaceRoot) (readFileBytes : PathBuf → Except StorageError Bytes)
    (manifest : Manifest) : Set (Digest × Except StorageError Bytes) :=
  Set.image (fun input => (input.digest, input.content.readBytes readFileBytes))
    {input | input ∈ manifest.collectBlobInputs root}

inductive KeptManifest
  | json (manifest : Option Manifest)
  | actionResult (result : ActionResult)
deriving DecidableEq

def isRemote (storage : Storage σ) (backend : StorageBackend σ) : Bool :=
  storage.remoteBackends.any (fun remote => remote.id == backend.id)

def keptManifest (storage : Storage σ) (backend : StorageBackend σ) (manifest : Manifest) :
    KeptManifest :=
  if isRemote storage backend then .actionResult (manifest.intoBazelActionResult false)
  else .json (if manifest.isSerializable then some manifest.serialized else none)

/-- One backend's copy of an archived task. -/
@[ext]
structure ArchivedEntry (σ : Type) where
  backend : StorageBackend σ
  digest : Digest
  blobs : Set (Digest × Except StorageError Bytes)
  manifest : KeptManifest

def archivedEntry (storage : Storage σ) (root : WorkspaceRoot)
    (readFileBytes : PathBuf → Except StorageError Bytes) (task : PersistTask σ) :
    ArchivedEntry σ where
  backend := task.backend
  digest := task.digest
  blobs := storedBlobs root readFileBytes task.manifest
  manifest := keptManifest storage task.backend task.manifest

/-- The hash manifest is stored as a blob of the outputs already. -/
def FingerprintStored (root : WorkspaceRoot)
    (readFileBytes : PathBuf → Except StorageError Bytes) (manifest : Manifest) : Prop :=
  ∀ input, manifest.digestSource.bind (ManifestFile.blobInput root) = some input →
    (input.digest, input.content.readBytes readFileBytes) ∈
      storedBlobs root readFileBytes { manifest with digestSource := none }

variable {sha256 : Bytes → String} {fs : PackFs} {root : WorkspaceRoot} {manifest : Manifest}
  {rd : PathBuf → Except StorageError Bytes}

lemma storedBlobs_eq_rest_iff :
    storedBlobs root rd { manifest with digestSource := none } = storedBlobs root rd manifest ↔
      FingerprintStored root rd manifest := by
  have hs : ∀ i, i ∈ manifest.collectBlobInputs root ↔
      manifest.digestSource.bind (ManifestFile.blobInput root) = some i ∨
        i ∈ ({ manifest with digestSource := none } : Manifest).collectBlobInputs root := by
    intro i
    simp only [collectBlobInputs, mem_append, Option.mem_toList, or_assoc,
      Option.bind_none, reduceCtorEq, false_or]
  constructor
  · intro heq i hi
    rw [heq]
    exact ⟨i, (hs i).mpr (.inl hi), rfl⟩
  · intro hc
    ext blob
    constructor
    · rintro ⟨i, hi, rfl⟩
      exact ⟨i, (hs i).mpr (.inr hi), rfl⟩
    · rintro ⟨i, hi, rfl⟩
      cases (hs i).mp hi with
      | inl hsr => exact hc i hsr
      | inr hr => exact ⟨i, hr, rfl⟩

lemma keptManifest_delivered_iff (hp : PackedManifest sha256 fs root manifest)
    (s : Storage σ) (b : StorageBackend σ) :
    keptManifest s b (delivered manifest) = keptManifest s b manifest ↔
      isRemote s b ∨ manifest.isSerializable := by
  unfold keptManifest
  rw [delivered_intoBazel hp, delivered_isSerializable]
  by_cases hr : isRemote s b
  · simp [hr]
  · by_cases ht : manifest.isSerializable
    · simp [hr, ht, delivered_serialized ht]
    · simp [hr, ht]

lemma archivedEntry_delivered_iff (hp : PackedManifest sha256 fs root manifest)
    (hl : ∀ f ∈ manifest.files, ∀ s, f.sourcePath = some s → f.path.toLogicalPath root.path = s)
    (st : Storage σ) (b : StorageBackend σ) (d : Digest) :
    archivedEntry st root rd ⟨b, d, delivered manifest⟩ =
        archivedEntry st root rd ⟨b, d, manifest⟩ ↔
      FingerprintStored root rd manifest ∧ (isRemote st b ∨ manifest.isSerializable) := by
  have hb : storedBlobs root rd (delivered manifest) =
      storedBlobs root rd { manifest with digestSource := none } := by
    unfold storedBlobs
    rw [collectBlobInputs_delivered hp hl]
  rw [ArchivedEntry.ext_iff, ← storedBlobs_eq_rest_iff, ← hb, ← keptManifest_delivered_iff hp]
  simp [archivedEntry]

end

/-- The daemon stores what the client would have stored exactly if the fingerprint file has
no blob of its own, and no time before the epoch is to be written as JSON. -/
theorem daemon_archives_alike_iff {σ : Type} (storage : Storage σ) (sha256 : Bytes → String)
    (hsha : ∀ content, isContentHash (sha256 content) = true) (fs : PackFs) (root : WorkspaceRoot)
    (hwalk : WalksBelow fs root) (outputs : List PathBuf)
    (hnames : ∀ output ∈ outputs, NamesOnly output) (exec : Option ExecOutput) (digest : Digest)
    (hdigest : isContentHash digest.hash = true) (source : PathBuf) {manifest : Manifest}
    (hpack : createCacheManifest sha256 fs root outputs exec digest source = .ok manifest)
    (readFileBytes : PathBuf → Except StorageError Bytes) (taskTarget : String)
    (useLocal useRemote : Bool) :
    let writable := (storage.getBackendsWithOptions
      { includeLocal := useLocal, includeRemote := useRemote }).filter StorageBackend.isWritable
    ∃ direct daemon,
      OutputArchiver.archive storage false taskTarget digest manifest useLocal useRemote =
        .ok direct ∧
      OutputArchiver.archive storage true taskTarget digest manifest useLocal useRemote =
        .ok daemon ∧
      (daemon.map (archivedEntry storage root readFileBytes) =
          direct.map (archivedEntry storage root readFileBytes) ↔
        (writable = [] ∨ FingerprintStored root readFileBytes manifest) ∧
          ((∀ backend ∈ writable, isRemote storage backend = true) ∨
            manifest.isSerializable = true)) := by
  intro w
  by_cases hs : (!useLocal && !useRemote)
  · have hn : w = [] := by
      simp only [Bool.and_eq_true, Bool.not_eq_true'] at hs
      simp [w, Storage.getBackendsWithOptions, hs]
    exact ⟨[], [], by simp [archive, hs], by simp [archive, hs], by simp [hn]⟩
  have hp := createCacheManifest_packed hpack
  have hl := createCacheManifest_located hwalk hnames hpack
  set op := storage.withOptions { includeLocal := useLocal, includeRemote := useRemote }
  have hw : op.getBackends.filter StorageBackend.isWritable = w := rfl
  have hdm : archive storage true taskTarget digest manifest useLocal
      useRemote = .ok (op.archiveManifest digest (delivered manifest)) := by
    have hk := toInternalDigest_toExternalDigest hdigest
    have hd := fromBazelActionResult_intoBazelActionResult (hp.contentHashes hsha)
    simp only [archive, if_neg hs, if_true, DaemonService.archiveTaskOutputs,
      DaemonClient.archiveTaskOutputs, DaemonService.decode, hk, hd]
    rfl
  refine ⟨op.archiveManifest digest manifest, _, ?_, hdm, ?_⟩
  · simp only [archive, if_neg hs, Bool.false_eq_true, if_false]
    rfl
  · simp only [Storage.archiveManifest, hw, map_map, map_inj_left,
      Function.comp_apply, archivedEntry_delivered_iff hp hl]
    cases w with
    | nil => simp
    | cons b backends =>
      simp only [reduceCtorEq, false_or]
      constructor
      · intro h
        refine ⟨(h b mem_cons_self).1, ?_⟩
        by_cases ht : manifest.isSerializable
        · exact .inr ht
        · exact .inl (fun o ho => (h o ho).2.resolve_right ht)
      · intro ⟨hf, ht⟩ o ho
        exact ⟨hf, ht.imp_left (fun hr => hr o ho)⟩

def hexHash (digit : Char) : String := String.ofList (replicate 64 digit)

def hiFs (fingerprint : Bool) : PackFs where
  readLink _ := none
  metadata _ := some ⟨some 0, 0o644⟩
  content _ := some [104, 105]
  isDir _ := false
  walkFiles _ := []
  pathExists _ := fingerprint

def packHi (fingerprint : Bool) : Except ManifestError Manifest :=
  createCacheManifest (fun _ => hexHash 'a') (hiFs fingerprint) slashRoot
    [⟨true, [.normal "out"]⟩] none ⟨hexHash 'b', 2⟩ ⟨true, [.normal "hash"]⟩

def taskDigests (task : PersistTask LocalDisk) : List Digest :=
  (task.manifest.collectBlobInputs slashRoot).map BlobInput.digest

/-- Without the daemon the fingerprint is stored, with the daemon it is not. -/
theorem fingerprint_not_sent :
    ∃ manifest direct daemon, packHi true = .ok manifest ∧
      OutputArchiver.archive (verifyingStorage.alone (fun _ => "") slashRoot) false "app:build"
        ⟨hexHash 'b', 2⟩ manifest true false = .ok direct ∧
      OutputArchiver.archive (verifyingStorage.alone (fun _ => "") slashRoot) true "app:build"
        ⟨hexHash 'b', 2⟩ manifest true false = .ok daemon ∧
      direct.map taskDigests = [[⟨hexHash 'b', 2⟩, ⟨hexHash 'a', 2⟩]] ∧
      daemon.map taskDigests = [[⟨hexHash 'a', 2⟩]] :=
  ⟨_, _, _, rfl, rfl, rfl, rfl, rfl⟩

theorem packed_hi_archived_alike :
    ∃ manifest direct daemon, packHi false = .ok manifest ∧
      OutputArchiver.archive (verifyingStorage.alone (fun _ => "") slashRoot) false "app:build"
        ⟨hexHash 'b', 2⟩ manifest true false = .ok direct ∧
      OutputArchiver.archive (verifyingStorage.alone (fun _ => "") slashRoot) true "app:build"
        ⟨hexHash 'b', 2⟩ manifest true false = .ok daemon ∧
      daemon.map (archivedEntry (verifyingStorage.alone (fun _ => "") slashRoot) slashRoot
          (fun _ => .ok [104, 105])) =
        direct.map (archivedEntry (verifyingStorage.alone (fun _ => "") slashRoot) slashRoot
          (fun _ => .ok [104, 105])) := by
  have hn : ∀ o ∈ [(⟨true, [.normal "out"]⟩ : PathBuf)], NamesOnly o := by
    intro o ho component hc
    cases mem_singleton.mp ho
    cases mem_singleton.mp hc
    exact ⟨"out", rfl, rfl⟩
  have hw : WalksBelow (hiFs false) slashRoot := fun _ _ _ f hf => nomatch hf
  obtain ⟨direct, daemon, hd, hdm, hi⟩ := daemon_archives_alike_iff
    (verifyingStorage.alone (fun _ => "") slashRoot) (fun _ => hexHash 'a') (fun _ => rfl)
    (hiFs false) slashRoot hw [⟨true, [.normal "out"]⟩] hn none ⟨hexHash 'b', 2⟩ rfl
    ⟨true, [.normal "hash"]⟩ rfl (fun _ => .ok [104, 105]) "app:build" true false
  refine ⟨_, direct, daemon, rfl, hd, hdm, hi.mpr ⟨.inr ?_, .inr rfl⟩⟩
  intro i hin
  cases hin

end Moon.Proofs
