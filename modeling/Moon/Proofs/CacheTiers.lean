import Moon.CacheTiers
import Moon.Proofs.CacheProcesses
import Moon.Proofs.OutputArchiver

/-!
# Objects and their addresses

Nothing is hashed when a blob is written, so the content of an object is what its address says
only if every hop on the way there kept content and digest together.
-/

namespace Moon.Proofs
open Lib List Option Manifest TierState ExternalDigest ManifestFile ManifestPacker

variable {recorded : Option Digest} {b : Option Bytes} {m : Manifest}

section

variable (f : Bytes → String)

/-- Blobs are stored under the hash of their content. -/
def Addressed (disk : LocalDisk) : Prop :=
  ∀ hash object, disk.blobs.lookup hash = some object → f object.content = hash

def FileCoherent (file : ManifestFile) : Prop :=
  ∀ digest, file.digest = some digest → (digest.size = (0 : Int) → f [] = digest.hash) ∧
      (digest.size ≠ (0 : Int) → ∀ bytes, file.bytes = some bytes → f bytes = digest.hash)

def StreamCoherent (recorded : Option Digest) (bytes : Option Bytes) : Prop :=
  ∀ digest content, recorded = some digest → bytes = some content → f content = digest.hash

structure Coherent (manifest : Manifest) : Prop where
  files : ∀ file ∈ manifest.files, FileCoherent f file
  source : ∀ file, manifest.digestSource = some file → FileCoherent f file
  stderr : StreamCoherent f manifest.stderrDigest manifest.stderrBytes
  stdout : StreamCoherent f manifest.stdoutDigest manifest.stdoutBytes

/-- What a server inlines matches the digests it sends, and empty files have the hash of
the empty content. -/
structure Trustworthy (result : ActionResult) : Prop where
  files : ∀ file ∈ result.outputFiles, ∀ digest, file.digest = some digest →
    (digest.sizeBytes = 0 → f [] = digest.hash) ∧
      (digest.sizeBytes ≠ 0 → file.contents ≠ [] → f file.contents = digest.hash)
  stderr : ∀ digest, result.stderrDigest = some digest → result.stderrRaw ≠ [] →
    f result.stderrRaw = digest.hash
  stdout : ∀ digest, result.stdoutDigest = some digest → result.stdoutRaw ≠ [] →
    f result.stdoutRaw = digest.hash

variable {f} {e : Option ExternalDigest}

lemma toInternalDigest_ok (h : toInternalDigest? e = .ok recorded) :
    e = recorded.map Digest.toExternalDigest := by
  cases e with
  | none =>
    cases h
    rfl
  | some e =>
    simp only [toInternalDigest?, toInternalDigest] at h
    by_cases hh : isContentHash e.hash
    · rw [if_pos hh] at h
      cases h
      rfl
    · rw [if_neg hh] at h
      cases h

lemma inlined_eq_some {raw b : Bytes} (h : inlined raw = some b) : raw ≠ [] ∧ b = raw := by
  unfold inlined at h
  split_ifs at h with hr
  cases h
  exact ⟨fun hem => hr (by simp [hem]), rfl⟩

lemma streamCoherent_inlined {raw : Bytes} (hd : toInternalDigest? e = .ok recorded)
    (ht : ∀ d, e = some d → raw ≠ [] → f raw = d.hash) :
    StreamCoherent f recorded (inlined raw) := by
  intro d c hdg hc
  obtain ⟨hr, rfl⟩ := inlined_eq_some hc
  have hex := toInternalDigest_ok hd
  rw [hdg] at hex
  exact ht d.toExternalDigest hex hr

lemma Trustworthy.coherent {r : ActionResult} (ht : Trustworthy f r)
    (h : fromBazelActionResult r = .ok m) : Coherent f m := by
  obtain ⟨files, hfls, h⟩ := bind_eq_ok h
  obtain ⟨stderrDigest, her, h⟩ := bind_eq_ok h
  obtain ⟨stdoutDigest, ho, h⟩ := bind_eq_ok h
  cases h
  exact {
    files := by
      intro file hf
      obtain ⟨sent, hsn, hdc⟩ := mem_of_mapM_eq_ok hfls hf
      obtain ⟨recorded, hrc, hrs⟩ := bind_eq_ok hdc
      cases hrs
      intro d hd
      change recorded = some d at hd
      have hex := toInternalDigest_ok hrc
      rw [hd] at hex
      have hs := ht.files sent hsn d.toExternalDigest hex
      refine ⟨hs.1, fun hsz b hb => ?_⟩
      change (if sent.digest.isSome then inlined sent.contents else none) = some b at hb
      rw [hex] at hb
      obtain ⟨hr, rfl⟩ := inlined_eq_some hb
      exact hs.2 hsz hr
    source := fun file hf => nomatch hf
    stderr := streamCoherent_inlined her ht.stderr
    stdout := streamCoherent_inlined ho ht.stdout }

lemma raw_of_stream (h : StreamCoherent f recorded b) (d : ExternalDigest)
    (hd : recorded.map Digest.toExternalDigest = some d) (hr : b.getD [] ≠ []) :
    f (b.getD []) = d.hash := by
  obtain ⟨inner, hi, rfl⟩ := map_eq_some_iff.mp hd
  cases b with
  | none => exact absurd rfl hr
  | some c => exact h inner c hi rfl

lemma Coherent.trustworthy (h : Coherent f m) : Trustworthy f (m.intoBazelActionResult true) where
  files := by
    intro file hf d hd
    obtain ⟨p, hp, rfl⟩ := mem_map.mp hf
    obtain ⟨inner, hi, rfl⟩ := map_eq_some_iff.mp hd
    have hf := h.files p hp inner hi
    refine ⟨hf.1, fun hs hc => ?_⟩
    cases hb : p.bytes with
    | none => simp [intoBazelFile, hb] at hc
    | some b =>
      simp only [intoBazelFile, hb, getD_some]
      exact hf.2 hs b hb
  stderr := raw_of_stream h.stderr
  stdout := raw_of_stream h.stdout

end

variable {file : ManifestFile} {d : Digest}

section

variable {f : Bytes → String} {rd : PathBuf → Except StorageError Bytes}
  {bs : Blobs} {m' : Manifest}

def BlobsCoherent (sha256 : Bytes → String)
    (readFileBytes : PathBuf → Except StorageError Bytes) (blobs : Blobs) : Prop :=
  ∀ digest content, (digest, content) ∈ blobs → ∀ bytes,
    content.readBytes readFileBytes = .ok bytes → sha256 bytes = digest.hash

lemma mem_of_get {c : BlobContent} (h : bs.get d = some c) : (d, c) ∈ bs := by
  obtain ⟨blob, hf, rfl⟩ := map_eq_some_iff.mp h
  have hm := mem_reverse.mp (mem_of_find?_eq_some hf)
  have hd : blob.1 = d := by simpa using find?_some hf
  rw [← hd]
  exact hm

lemma hydrateStdio_coherent {r : Option Bytes} (hb : BlobsCoherent f rd bs)
    (hs : StreamCoherent f recorded b) (h : hydrateStdio rd bs b recorded = .ok r) :
    StreamCoherent f recorded r := by
  unfold hydrateStdio at h
  split at h
  · rename_i content hg
    intro d filled hd hf
    rw [hd, bind_some] at hg
    subst hf
    cases hr : content.readBytes rd with
    | error error => simp [hr, Except.map] at h
    | ok b =>
      simp only [hr, Except.map, Except.ok.injEq, some.injEq] at h
      subst h
      exact hb d content (mem_of_get hg) b hr
  · cases h
    exact hs

lemma Coherent.hydrate (hm : Coherent f m) (hb : BlobsCoherent f rd bs)
    (h : m.hydrate rd bs = .ok m') : Coherent f m' := by
  obtain ⟨stderr, her, h⟩ := bind_eq_ok h
  obtain ⟨stdout, ho, h⟩ := bind_eq_ok h
  cases h
  exact {
    files := by
      intro file hf
      obtain ⟨st, hs, rfl⟩ := mem_map.mp hf
      have hc := hm.files st hs
      unfold ManifestFile.hydrate
      split
      · exact hc
      · split
        · exact hc
        · rename_i c hg
          intro d hd
          change st.digest = some d at hd
          refine ⟨(hc d hd).1, fun _ b hby => ?_⟩
          cases hby
          rw [hd, bind_some] at hg
          exact hb d _ (mem_of_get hg) c rfl
        · exact hc
    source := hm.source
    stderr := hydrateStdio_coherent hb hm.stderr her
    stdout := hydrateStdio_coherent hb hm.stdout ho }

lemma mem_verifiedBlobs {r : List (Digest × Bytes)} {c : BlobContent}
    (h : (d, c) ∈ verifiedBlobs f r) : ∃ b, c = .inline b ∧ f b = d.hash := by
  obtain ⟨blob, hb, heq⟩ := mem_map.mp h
  cases heq
  have hc := (mem_filter.mp hb).2
  simp only [checkBlobIntegrity, Bool.and_eq_true, decide_eq_true_eq] at hc
  exact ⟨blob.2, rfl, congrArg Digest.hash hc.2⟩

lemma retrieveBlobs_coherent {storage : LocalStorage} {disk : LocalDisk} {ds : List Digest}
    (hd : Addressed f disk) (h : ((storage.retrieveBlobs ds).run disk).1 = .ok bs) :
    BlobsCoherent f (storage.readFileBytes disk) bs := by
  cases h
  intro d c hm b hr
  obtain ⟨asked, _, heq⟩ := mem_filterMap.mp hm
  split_ifs at heq with hp
  cases heq
  have ho : d.hash ∈ disk.blobs := by
    simpa [CasObjects.containsObject] using hp
  obtain ⟨o, hl⟩ := Finmap.mem_iff.mp ho
  have hc := readFileBytes_objectPath storage disk hl
  cases hc.symm.trans hr
  exact hd d.hash o hl

end

variable {i : BlobInput}

section

variable {f : Bytes → String} {storage : LocalStorage} {root : WorkspaceRoot}
 

def InputCoherent (sha256 : Bytes → String) (input : BlobInput) : Prop :=
  ∀ bytes, input.content = .inline bytes → sha256 bytes = input.digest.hash

lemma blobInput_coherent (hf : FileCoherent f file) (h : file.blobInput root = some i) :
    InputCoherent f i := by
  obtain ⟨d, hd, rfl⟩ := map_eq_some_iff.mp h
  obtain ⟨hem, hb⟩ := hf d hd
  intro b hc
  change file.blobContent root d = .inline b at hc
  unfold blobContent at hc
  split at hc
  · rename_i hs
    cases hc
    exact hem hs
  · rename_i hs
    cases hcr : file.bytes with
    | some c =>
      rw [hcr] at hc
      cases hc
      exact hb hs b hcr
    | none =>
      rw [hcr] at hc
      cases hsr : file.sourcePath <;> simp [hsr] at hc

lemma stdioInput_coherent (hs : StreamCoherent f recorded b)
    (h : stdioInput recorded b = some i) : InputCoherent f i := by
  unfold stdioInput at h
  split at h
  · rename_i d c
    cases h
    intro b heq
    cases heq
    exact hs d c rfl rfl
  · cases h

lemma Coherent.inputs (h : Coherent f m)
    (hi : i ∈ m.collectBlobInputs root) : InputCoherent f i := by
  simp only [collectBlobInputs, mem_append, mem_toList, mem_filterMap] at hi
  rcases hi with ((hs | ⟨file, hf, hc⟩) | her) | ho
  · obtain ⟨file, hf, hc⟩ := bind_eq_some_iff.mp hs
    exact blobInput_coherent (h.source file hf) hc
  · exact blobInput_coherent (h.files file hf) hc
  · exact stdioInput_coherent h.stderr her
  · exact stdioInput_coherent h.stdout ho

structure UploadCoherent (sha256 : Bytes → String) (upload : Upload) : Prop where
  pending : ∀ input ∈ upload.pending, InputCoherent sha256 input
  missing : ∀ input ∈ upload.missing, InputCoherent sha256 input
  staged : ∀ blob ∈ upload.staged, sha256 blob.bytes = blob.digest.hash

/-- What is read from a path when it is staged matches the digest, unless it is the object
of the digest anyway. -/
def Unaltered (sha256 : Bytes → String) (storage : LocalStorage) (disk : LocalDisk)
    (input : BlobInput) : Prop :=
  ∀ path bytes, input.content = .file path →
    path ≠ storage.blobs.objectPath input.digest.hash →
    storage.readFileBytes disk path = .ok bytes → sha256 bytes = input.digest.hash

variable {disk disk' : LocalDisk} {upload upload' : Upload} {w : Nat}

lemma Addressed.write (hd : Addressed f disk) {hash : String} {b : Bytes}
    (hb : f b = hash) (mo : SystemTime) :
    Addressed f { disk with blobs := disk.blobs.write hash b mo } := by
  intro o ob ho
  have hl := Map.lookup_insert_eq disk.blobs hash o ⟨b, mo⟩
  change (disk.blobs.write _ _ _).lookup o = _ at ho
  rw [CasObjects.write, hl] at ho
  split at ho
  · rename_i heq
    cases ho
    rw [heq]
    exact hb
  · exact hd o ob ho

lemma staged_coherent (hd : Addressed f disk) {b : Bytes}
    (hi : InputCoherent f i) (hu : Unaltered f storage disk i)
    (hr : i.content.readBytes (storage.readFileBytes disk) = .ok b) : f b = i.digest.hash := by
  cases hc : i.content with
  | inline c =>
    rw [hc] at hr
    cases hr
    exact hi b hc
  | file p =>
    rw [hc] at hr
    change storage.readFileBytes disk p = .ok b at hr
    by_cases ho : p = storage.blobs.objectPath i.digest.hash
    · subst ho
      cases hl : disk.blobs.lookup i.digest.hash with
      | none =>
        simp [LocalStorage.readFileBytes, hashOfPath_objectPath, hl] at hr
      | some o =>
        cases (readFileBytes_objectPath storage disk hl).symm.trans hr
        exact hd i.digest.hash o hl
    · exact hu p b hc ho hr

lemma UploadCoherent.step (hu : UploadCoherent f upload) (hd : Addressed f disk)
    {event : UploadEvent} (hs : ∀ i, event = .stage i → Unaltered f storage disk i)
    (h : upload.step storage w disk event = some (disk', upload')) :
    Addressed f disk' ∧ UploadCoherent f upload' := by
  cases event with
  | look i =>
    simp only [Upload.step] at h
    split at h
    · rename_i hg
      have hp : ∀ o ∈ upload.pending.erase i, InputCoherent f o :=
        fun o ho => hu.pending o (mem_of_mem_erase ho)
      split at h
      · cases h
        exact ⟨hd, hp, hu.missing, hu.staged⟩
      · cases h
        refine ⟨hd, hp, ?_, hu.staged⟩
        exact forall_mem_cons.mpr ⟨hu.pending i hg.2, hu.missing⟩
    · cases h
  | stage i =>
    simp only [Upload.step] at h
    split_ifs at h with hg
    split at h
    · cases h
      exact ⟨hd, hu.pending, hu.missing, hu.staged⟩
    · rename_i b hr
      cases h
      have hb := staged_coherent hd (hu.missing i hg.2.2) (hs i rfl) hr
      refine ⟨hd, hu.pending, ?_, forall_mem_cons.mpr ⟨hb, hu.staged⟩⟩
      exact fun o ho => hu.missing o (mem_of_mem_erase ho)
  | commit blob =>
    simp only [Upload.step] at h
    split_ifs at h with hg
    cases h
    refine ⟨hd.write (hu.staged blob hg.1) _, hu.pending, hu.missing, ?_⟩
    exact fun o ho => hu.staged o (mem_of_mem_erase ho)
  | stored | checkManifest | writeManifest modified | abort =>
    simp only [Upload.step] at h
    split at h
    · cases h
      exact ⟨hd, hu.pending, hu.missing, hu.staged⟩
    · cases h

end

section

variable {f : Bytes → String} {fs : PackFs} {root : WorkspaceRoot} {exec : Option ExecOutput}

lemma createCacheManifest_source {os : List PathBuf} {so : PathBuf}
    (h : createCacheManifest f fs root os exec d so = .ok m) (hf : m.digestSource = some file) :
    file.digest = some d ∧ file.bytes = none := by
  unfold createCacheManifest at h
  obtain ⟨p, hfld, hp⟩ := bind_eq_ok h
  have hn : p.manifest.digestSource = none := by
    refine foldlM_invariant (P := fun p => p.manifest.digestSource = none)
      (fun _ _ _ hn hs => ?_) rfl hfld
    refine inheritOutput_ok (P := fun p => p.manifest.digestSource = none) hn hs (fun _ => hn) ?_
    intro _ file _ current next hc hs
    obtain ⟨_, _, rfl⟩ := insertFile_ok hs
    exact hc
  cases hp
  simp only [pack, inheritSource] at hf
  split at hf
  · cases hf
    exact ⟨rfl, rfl⟩
  · cases exec <;> simp [inheritOperation, hn] at hf

lemma streamCoherent_packed (h : PackedOutput f b recorded) : StreamCoherent f recorded b := by
  intro d c hd hc
  subst hd hc
  cases h with
  | inl hn => cases hn.1
  | inr hs =>
    obtain ⟨o, _, hb, hr⟩ := hs
    cases hb
    cases hr
    rfl

lemma fromBytes_empty {c : Bytes} (h : (Digest.fromBytes f c).size = (0 : Int)) :
    f [] = (Digest.fromBytes f c).hash := by
  have hem : c = [] := eq_nil_of_length_eq_zero (Int.ofNat.inj h)
  rw [hem]
  rfl

lemma createCacheManifest_coherent {os : List PathBuf} {fi : Bytes} {so : PathBuf}
    (h : createCacheManifest f fs root os exec (Digest.fromBytes f fi) so = .ok m) :
    Coherent f m := by
  have hp := createCacheManifest_packed h
  exact {
    files := by
      intro file hf d hd
      obtain ⟨absPath, hf'⟩ := hp.files file hf
      obtain ⟨c, _, hr⟩ := hf'.digest
      cases hd.symm.trans hr
      refine ⟨fromBytes_empty, fun _ b hb => ?_⟩
      rw [hf'.bytes] at hb
      cases hb
    source := by
      intro file hf d hd
      obtain ⟨hr, hn⟩ := createCacheManifest_source h hf
      cases hd.symm.trans hr
      refine ⟨fromBytes_empty, fun _ b hb => ?_⟩
      rw [hn] at hb
      cases hb
    stderr := streamCoherent_packed hp.stderr
    stdout := streamCoherent_packed hp.stdout }

end

section

variable {f : Bytes → String} {manifestHash : StoredManifest → String}
  {storage : LocalStorage} {root : WorkspaceRoot} {w : Nat} {s s' : TierState}

structure HitCoherent (sha256 : Bytes → String) (hit : CacheHit) : Prop where
  manifest : hit.remote = true → Coherent sha256 hit.manifest
  copies : ∀ input ∈ hit.copies,
    ∃ bytes, input.content = .inline bytes ∧ sha256 bytes = input.digest.hash

structure TiersOk (sha256 : Bytes → String) (s : TierState) : Prop where
  objects : Addressed sha256 s.cache.disk
  uploads : ∀ id upload, s.cache.uploads id = some upload → UploadCoherent sha256 upload
  hits : ∀ id hit, s.hits id = some hit → HitCoherent sha256 hit

/-- What comes into the cache has the content of its hash. -/
def Faithful (sha256 : Bytes → String) (storage : LocalStorage) (s : TierState) : TierEvent → Prop
  | .loadRemote _ _ result => Trustworthy sha256 result
  | .cache (.upload _ (.stage i)) => Unaltered sha256 storage s.cache.disk i
  | _ => True

lemma TiersOk.setHit (ho : TiersOk f s) {hit : CacheHit} (hh : HitCoherent f hit)
    (id : Nat) : TiersOk f (s.setHit id hit) :=
  ⟨ho.objects, ho.uploads, forall_update_some ho.hits hh⟩

lemma TiersOk.setUpload (ho : TiersOk f s) {disk : LocalDisk} (hd : Addressed f disk)
    {upload : Upload} (hu : UploadCoherent f upload) (id : Nat) : TiersOk f { s with
      cache := { s.cache with
        disk := disk
        uploads := Function.update s.cache.uploads id (some upload) } } :=
  ⟨hd, forall_update_some ho.uploads hu, ho.hits⟩

lemma TiersOk.startUpload (ho : TiersOk f s) {id : Nat} (hm : Coherent f m)
    (h : s.startUpload storage root w id d m = some s') : TiersOk f s' := by
  obtain ⟨cache, hc, heq⟩ := bind_eq_some_iff.mp h
  cases heq
  simp only [CacheState.step] at hc
  split_ifs at hc
  cases hc
  refine ho.setUpload ho.objects ?_ id
  unfold Upload.start
  dsimp only
  split
  · exact ⟨by simp, by simp, by simp⟩
  · refine ⟨fun i hi => ?_, by simp, by simp⟩
    exact hm.inputs ((retainUnseen_sublist [] _).subset hi)

lemma TiersOk.cacheStep (ho : TiersOk f s) {event : CacheEvent} {cache : CacheState}
    (hf : Faithful f storage s (.cache event)) (hstr : ∀ id d m, event ≠ .startUpload id d m)
    (h : s.cache.step storage root w event = some cache) : TiersOk f { s with cache := cache } := by
  cases event with
  | tick | startCollection =>
    simp only [CacheState.step] at h
    split_ifs at h
    cases h
    exact ⟨ho.objects, ho.uploads, ho.hits⟩
  | edit path c =>
    cases h
    exact ⟨ho.objects, ho.uploads, ho.hits⟩
  | startUpload id d m => exact absurd rfl (hstr id d m)
  | upload id event =>
    obtain ⟨upload, hu, h⟩ := bind_eq_some_iff.mp h
    obtain ⟨⟨disk, next⟩, hs, h⟩ := bind_eq_some_iff.mp h
    cases h
    have hstg : ∀ i, event = .stage i →
        Unaltered f storage s.cache.disk i := by
      intro i hev
      subst hev
      exact hf
    obtain ⟨hd, hn⟩ := (ho.uploads id upload hu).step ho.objects hstg hs
    exact ho.setUpload hd hn id
  | collection id event =>
    obtain ⟨collection, _, h⟩ := bind_eq_some_iff.mp h
    obtain ⟨⟨disk, next⟩, hs, h⟩ := bind_eq_some_iff.mp h
    cases h
    have hr := (Collection.step_move hs).disk_le.2.1
    refine ⟨fun hash object hob => ?_, ho.uploads, ho.hits⟩
    exact ho.objects hash object (hr hash object hob)

lemma TiersOk.step (hok : TiersOk f s) {event : TierEvent} (hf : Faithful f storage s event)
    (h : s.step f manifestHash storage root w event = some s') : TiersOk f s' := by
  cases event with
  | cache event =>
    have hs : ∀ id d m, event ≠ .startUpload id d m := by
      intro id d m heq
      subst heq
      cases h
    have hch : ∃ cache, s.cache.step storage root w event = some cache ∧
        s' = { s with cache := cache } := by
      cases event with
      | startUpload id d m => exact absurd rfl (hs id d m)
      | _ =>
        change (s.cache.step storage root w _ >>= fun cache =>
          some { s with cache := cache }) = some s' at h
        obtain ⟨cache, hch, heq⟩ := bind_eq_some_iff.mp h
        cases heq
        exact ⟨cache, hch, rfl⟩
    obtain ⟨cache, hch, rfl⟩ := hch
    exact hok.cacheStep hf hs hch
  | archive id fs os exec fingerprint source daemon =>
    obtain ⟨packed, hp, h⟩ := bind_eq_some_iff.mp h
    obtain ⟨m, hsn, h⟩ := bind_eq_some_iff.mp h
    have hc := createCacheManifest_coherent (toOption_eq_some hp)
    refine hok.startUpload ?_ h
    unfold sent at hsn
    split at hsn
    · exact hc.trustworthy.coherent (toOption_eq_some hsn)
    · cases hsn
      exact hc
  | loadRemote id d r =>
    obtain ⟨m, hm, h⟩ := bind_eq_some_iff.mp h
    cases h
    have hc := Trustworthy.coherent hf (toOption_eq_some hm)
    exact hok.setHit ⟨fun _ => hc, by simp⟩ id
  | loadLocal id d =>
    simp only [TierState.step] at h
    split at h
    · rename_i m disk hrt
      cases h
      have hb : disk.blobs = s.cache.disk.blobs := by
        simp only [LocalStorage.retrieveManifest, StateT.run] at hrt
        split at hrt
        · split at hrt <;> cases hrt
          rfl
        · cases hrt
      have hd : TiersOk f { s with cache := { s.cache with disk := disk } } := by
        refine ⟨fun hash object hob => ?_, hok.uploads, hok.hits⟩
        exact hok.objects hash object (hb ▸ hob)
      exact hd.setHit ⟨fun hr => absurd hr Bool.false_ne_true, by simp⟩ id
    · cases h
  | receive id response =>
    obtain ⟨hit, hh, h⟩ := bind_eq_some_iff.mp h
    obtain ⟨m, hm, h⟩ := bind_eq_some_iff.mp h
    cases h
    have hol := hok.hits id hit hh
    refine hok.setHit ⟨fun hr => ?_, fun i hi => ?_⟩ id
    · refine (hol.manifest hr).hydrate (fun d c hme b hrd => ?_) (toOption_eq_some hm)
      obtain ⟨verified, rfl, hhs⟩ := mem_verifiedBlobs hme
      cases hrd
      exact hhs
    · cases mem_append.mp hi with
      | inl hcp => exact hol.copies i hcp
      | inr hn =>
        split at hn
        · cases hn
        · obtain ⟨d, _, hi⟩ := mem_filterMap.mp hn
          obtain ⟨c, hg, rfl⟩ := map_eq_some_iff.mp hi
          exact mem_verifiedBlobs (mem_of_get hg)
  | receiveLocal id =>
    obtain ⟨hit, hh, h⟩ := bind_eq_some_iff.mp h
    obtain ⟨bs, hb, h⟩ := bind_eq_some_iff.mp h
    obtain ⟨m, hm, h⟩ := bind_eq_some_iff.mp h
    cases h
    have hol := hok.hits id hit hh
    have hc := retrieveBlobs_coherent hok.objects (toOption_eq_some hb)
    have hn : HitCoherent f { hit with manifest := m } := by
      refine ⟨fun hr => ?_, hol.copies⟩
      exact (hol.manifest hr).hydrate hc (toOption_eq_some hm)
    exact hok.setHit hn id
  | copy id i =>
    obtain ⟨hit, hh, h⟩ := bind_eq_some_iff.mp h
    split_ifs at h with hcp
    obtain ⟨b, hby, h⟩ := bind_eq_some_iff.mp h
    cases h
    have hol := hok.hits id hit hh
    obtain ⟨c, hcn, hhs⟩ := hol.copies i hcp
    rw [hcn] at hby
    cases hby
    have hw : TiersOk f { s with
        cache := { s.cache with
          disk := { s.cache.disk with
            blobs := s.cache.disk.blobs.write i.digest.hash b
              s.cache.disk.now } } } :=
      ⟨hok.objects.write hhs _, hok.uploads, hok.hits⟩
    have hn : HitCoherent f { hit with copies := hit.copies.erase i } :=
      ⟨hol.manifest, fun o ho => hol.copies o (mem_of_mem_erase ho)⟩
    exact hw.setHit hn id
  | warm id upload =>
    obtain ⟨hit, hh, h⟩ := bind_eq_some_iff.mp h
    split_ifs at h with hgr
    have hr : hit.remote := (Bool.and_eq_true _ _ ▸ hgr).1
    exact hok.startUpload ((hok.hits id hit hh).manifest hr) h

end

/-- Along every run, the objects match their addresses, as long as no output is altered before it is
stored and the servers inline what their digests say. -/
theorem objects_addressed (sha256 : Bytes → String) (manifestHash : StoredManifest → String)
    (storage : LocalStorage) (root : WorkspaceRoot) (writeTime : Nat) (disk : LocalDisk)
    (hdisk : Addressed sha256 disk) (events : List TierEvent) (s : TierState)
    (halong : Along (TierState.step sha256 manifestHash storage root writeTime)
      (Faithful sha256 storage) (TierState.idle disk) events)
    (hrun : exec (TierState.step sha256 manifestHash storage root writeTime)
      (TierState.idle disk) events = some s) : Addressed sha256 s.cache.disk := by
  have hi : TiersOk sha256 (idle disk) :=
    ⟨hdisk, fun id upload hu => (nomatch hu), fun id hit hh => (nomatch hh)⟩
  have hen : TiersOk sha256 s :=
    exec_invariant_along (fun _ _ _ ho hf hs => ho.step hf hs) hi halong hrun
  exact hen.objects

def hiHash (content : Bytes) : String := if content = [104, 105] then hexHash 'a' else hexHash 'b'

def outPath : PathBuf := ⟨true, [.normal "out"]⟩

def outInput : BlobInput := ⟨.file outPath, ⟨hexHash 'a', 2⟩⟩

def archiveOut (content : Bytes) : List TierEvent :=
  [.cache (.edit outPath (some [104, 105])),
    .archive 0 (hiFs false) [outPath] none [123, 125] ⟨true, [.normal "hash"]⟩ false,
    .cache (.edit outPath (some content)), .cache (.upload 0 (.look outInput)),
    .cache (.upload 0 (.stage outInput)),
    .cache (.upload 0 (.commit ⟨⟨hexHash 'a', 2⟩, content, 0⟩))]

def inlinedInput (content : Bytes) : BlobInput := ⟨.inline content, ⟨hexHash 'a', 2⟩⟩

def warmInlined (content : Bytes) : List TierEvent :=
  [.loadRemote 0 ⟨hexHash 'b', 2⟩ {
      stdoutDigest := some ⟨hexHash 'a', 2⟩
      stdoutRaw := content },
    .warm 0 0, .cache (.upload 0 (.look (inlinedInput content))),
    .cache (.upload 0 (.stage (inlinedInput content))),
    .cache (.upload 0 (.commit ⟨⟨hexHash 'a', 2⟩, content, 0⟩))]

/-- The object of `hi` gets the content `yo`: from an output that was written again before it
was stored, and from a server that inlines it under that digest. -/
theorem altered_content_stored :
    Addressed hiHash emptyDisk ∧
    (∃ s, exec (TierState.step hiHash (fun _ => "") verifyingStorage slashRoot 0)
        (TierState.idle emptyDisk) (archiveOut [121, 111]) = some s ∧
      s.cache.disk.blobs.lookup (hexHash 'a') = some ⟨[121, 111], 0⟩) ∧
    (∃ s, exec (TierState.step hiHash (fun _ => "") verifyingStorage slashRoot 0)
        (TierState.idle emptyDisk) (warmInlined [121, 111]) = some s ∧
      s.cache.disk.blobs.lookup (hexHash 'a') = some ⟨[121, 111], 0⟩) ∧
    hiHash [121, 111] ≠ hexHash 'a' := by
  refine ⟨fun hash object ho => (nomatch ho), ⟨_, rfl, rfl⟩, ⟨_, rfl, rfl⟩, ?_⟩
  decide

theorem unaltered_output_addressed :
    ∃ s, exec (TierState.step hiHash (fun _ => "") verifyingStorage slashRoot 0)
        (TierState.idle emptyDisk) (archiveOut [104, 105]) = some s ∧
      Addressed hiHash s.cache.disk := by
  refine ⟨_, rfl, objects_addressed hiHash (fun _ => "") verifyingStorage slashRoot 0 emptyDisk
    (fun hash object ho => (nomatch ho)) (archiveOut [104, 105]) _ ?_ rfl⟩
  refine Along.cons trivial rfl (Along.cons trivial rfl (Along.cons trivial rfl
    (Along.cons trivial rfl (Along.cons ?_ rfl (Along.cons trivial rfl trivial)))))
  intro path b hp _ hr
  cases hp
  cases hr
  rfl

end Moon.Proofs
