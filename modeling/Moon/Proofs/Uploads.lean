import Moon.CacheProcesses
import Moon.Proofs.LocalArchive
import Moon.Proofs.LocalGc

/-! # Uploads and collections -/

namespace Moon.Proofs
open Lib List Upload

section

variable {s : LocalStorage} {w : Nat} {disk d' : LocalDisk} {u u' : Upload}

/-- The steps that an upload can take. -/
inductive UploadMove (storage : LocalStorage) (writeTime : Nat) (disk : LocalDisk)
    (upload : Upload) : LocalDisk → Upload → Prop
  | found (input : BlobInput) (hphase : upload.phase = .storingBlobs)
      (hpending : input ∈ upload.pending) (hpresent : input.digest.hash ∈ disk.blobs) :
      UploadMove storage writeTime disk upload disk { upload with
        pending := upload.pending.erase input
        found := input.digest :: upload.found }
  | missing (input : BlobInput) (hphase : upload.phase = .storingBlobs)
      (hpending : input ∈ upload.pending) :
      UploadMove storage writeTime disk upload disk { upload with
        pending := upload.pending.erase input
        missing := input :: upload.missing }
  | stage (input : BlobInput) (bytes : Bytes)
      (hphase : upload.phase = .storingBlobs ∨ upload.phase = .aborted)
      (hmissing : input ∈ upload.missing)
      (hbytes : input.content.readBytes (storage.readFileBytes disk) = .ok bytes) :
      UploadMove storage writeTime disk upload disk { upload with
        missing := upload.missing.erase input
        staged := ⟨input.digest, bytes, disk.now⟩ :: upload.staged }
  | fail (hphase : upload.phase = .storingBlobs ∨ upload.phase = .aborted) :
      UploadMove storage writeTime disk upload disk { upload with phase := .aborted }
  | commit (blob : StagedBlob) (hstaged : blob ∈ upload.staged)
      (htime : disk.now ≤ blob.modified + writeTime) :
      UploadMove storage writeTime disk upload
        { disk with blobs := disk.blobs.write blob.digest.hash blob.bytes blob.modified }
        { upload with
          staged := upload.staged.erase blob
          written := blob.digest :: upload.written }
  | stored (hphase : upload.phase = .storingBlobs) (hpending : upload.pending = [])
      (hmissing : upload.missing = []) (hstaged : upload.staged = []) :
      UploadMove storage writeTime disk upload disk { upload with
        manifest := { upload.manifest with uploadCompletedAt := some disk.now }
        phase := .checkingManifest }
  | check (phase : UploadPhase) (hphase : upload.phase = .checkingManifest)
      (hnext : phase = .ended ∨ phase = .writingManifest) :
      UploadMove storage writeTime disk upload disk { upload with phase := phase }
  | writeManifest (modified : SystemTime) (hphase : upload.phase = .writingManifest) :
      UploadMove storage writeTime disk upload
        { disk with
          manifests := disk.manifests.write upload.digest.hash
            (.json upload.manifest.serialized) modified }
        { upload with phase := .ended }

lemma Upload.step_move {e : UploadEvent} (h : u.step s w disk e = some (d', u')) :
    UploadMove s w disk u d' u' := by
  cases e with
  | look i =>
    simp only [Upload.step] at h
    split at h
    · rename_i hg
      split at h
      · rename_i hp
        cases h
        exact .found i hg.1 hg.2 (of_decide_eq_true hp)
      · cases h
        exact .missing i hg.1 hg.2
    · cases h
  | stage i =>
    simp only [Upload.step] at h
    split_ifs at h with hg
    split at h
    · cases h
      exact .fail hg.1
    · rename_i b hb
      cases h
      exact .stage i b hg.1 hg.2.2 hb
  | commit blob =>
    simp only [Upload.step] at h
    split_ifs at h with hg
    cases h
    exact .commit blob hg.1 hg.2
  | stored =>
    simp only [Upload.step] at h
    split_ifs at h with hg
    cases h
    exact .stored hg.1 hg.2.1 hg.2.2.1 hg.2.2.2
  | checkManifest =>
    simp only [Upload.step] at h
    split at h
    · rename_i hg
      cases h
      refine .check _ hg ?_
      split
      · exact .inl rfl
      · exact .inr rfl
    · cases h
  | writeManifest m =>
    simp only [Upload.step] at h
    split_ifs at h with hg
    cases h
    exact .writeManifest m hg.1
  | abort =>
    simp only [Upload.step] at h
    split_ifs at h with hg
    cases h
    exact .fail (.inl hg)

def relied (upload : Upload) : List Digest := upload.found ++ upload.written

/-- What an upload relies on is on disk until it is done. -/
structure UploadOk (writeTime : Nat) (disk : LocalDisk) (upload : Upload) : Prop where
  started : upload.startedAt ≤ disk.now
  recent : ∀ digest ∈ upload.written, ∀ object, disk.blobs.lookup digest.hash = some object →
    upload.startedAt ≤ object.modified + writeTime
  present : upload.isSettled = false → ∀ digest ∈ relied upload, digest.hash ∈ disk.blobs
  covered : ∀ digest ∈ upload.manifest.collectBlobDigests,
    digest ∈ relied upload ∨ digest ∈ upload.staged.map StagedBlob.digest ∨
      digest ∈ (upload.missing ++ upload.pending).map BlobInput.digest
  drained : upload.phase = .storingBlobs ∨ upload.phase = .aborted ∨
    upload.pending = [] ∧ upload.missing = [] ∧ upload.staged = []

structure Evolves (upload upload' : Upload) : Prop where
  startedAt : upload'.startedAt = upload.startedAt
  relied : relied upload ⊆ relied upload'
  aborted : upload.phase = .aborted → upload'.phase = .aborted
  ended : upload.phase = .ended → upload'.phase = .ended

lemma Evolves.refl (u : Upload) : Evolves u u := ⟨rfl, fun _ h => h, id, id⟩

lemma isSettled_iff : u.isSettled ↔ u.phase = .aborted ∨ u.phase = .ended := by
  simp [isSettled]

lemma UploadOk.covers (h : UploadOk w disk u)
    (hst : u.phase ≠ .storingBlobs) (ha : u.phase ≠ .aborted) :
    ∀ d ∈ u.manifest.collectBlobDigests, d ∈ relied u := by
  intro d hd
  obtain ⟨hp, hm, hs⟩ := (h.drained.resolve_left hst).resolve_left ha
  simpa [hp, hm, hs] using h.covered d hd

lemma UploadOk.mono (h : UploadOk w disk u) (hnw : disk.now ≤ d'.now)
    (hb : ∀ hash o, d'.blobs.lookup hash = some o →
      disk.blobs.lookup hash = some o ∨ disk.now ≤ o.modified + w)
    (hk : u.isSettled = false → ∀ d ∈ relied u, d.hash ∈ disk.blobs → d.hash ∈ d'.blobs) :
    UploadOk w d' u where
  started := h.started.trans hnw
  recent d hd o ho := by
    cases hb d.hash o ho with
    | inl hol => exact h.recent d hd o hol
    | inr hn => exact h.started.trans hn
  present ha d hd := hk ha d hd (h.present ha d hd)
  covered := h.covered
  drained := h.drained

section

variable (h : UploadMove s w disk u d' u')
include h

lemma UploadMove.evolves : Evolves u u' := by
  cases h with
  | found | missing | stage =>
    exact ⟨rfl, by simp [relied], by simp, by simp⟩
  | fail hp =>
    refine ⟨rfl, by simp [relied], by simp, fun hen => ?_⟩
    rw [hen] at hp
    simp at hp
  | commit blob => exact ⟨rfl, by intro d; simp [relied]; tauto, id, id⟩
  | stored hp | check phase hp | writeManifest modified hp =>
    exact ⟨rfl, by simp [relied], by simp [hp], by simp [hp]⟩

lemma UploadMove.now_eq : d'.now = disk.now := by
  cases h <;> rfl

lemma UploadMove.blobs :
    (∀ hash o, d'.blobs.lookup hash = some o →
      disk.blobs.lookup hash = some o ∨ disk.now ≤ o.modified + w) ∧
      ∀ hash ∈ disk.blobs, hash ∈ d'.blobs := by
  cases h with
  | commit b hstg ht =>
    refine ⟨fun hash o ho => ?_, fun hash hm => Finmap.mem_insert.mpr (.inr hm)⟩
    have hl := Map.lookup_insert_eq disk.blobs b.digest.hash hash ⟨b.bytes, b.modified⟩
    change (disk.blobs.write _ _ _).lookup hash = some o at ho
    rw [CasObjects.write, hl] at ho
    split at ho
    · cases ho
      exact .inr ht
    · exact .inl ho
  | _ => exact ⟨fun hash o ho => .inl ho, fun hash hm => hm⟩

end

lemma collectBlobDigests_serialized (m : Manifest) :
    m.serialized.collectBlobDigests = m.collectBlobDigests := by
  simp [Manifest.collectBlobDigests, Manifest.serialized, flatMap_map, ManifestFile.serialized]

lemma UploadMove.manifests (h : UploadMove s w disk u d' u') {hash : String} {m : Manifest}
    {mo : SystemTime} (hs : d'.manifests.lookup hash = some ⟨.json m, mo⟩) :
    disk.manifests.lookup hash = some ⟨.json m, mo⟩ ∨
      u.phase = .writingManifest ∧ u'.phase = .ended ∧ m = u.manifest.serialized := by
  cases h with
  | writeManifest time hp =>
    have hl := Map.lookup_insert_eq disk.manifests u.digest.hash hash
      ⟨.json u.manifest.serialized, time⟩
    change (disk.manifests.write _ _ _).lookup hash = _ at hs
    rw [CasObjects.write, hl] at hs
    split at hs
    · cases hs
      exact .inr ⟨hp, rfl, rfl⟩
    · exact .inl hs
  | _ => exact .inl hs

lemma mem_map_or_erase {α β : Type} [DecidableEq α] (f : α → β) {l : List α} (a : α) {b : β}
    (h : b ∈ l.map f) : b = f a ∨ b ∈ (l.erase a).map f := by
  obtain ⟨x, hx, rfl⟩ := mem_map.mp h
  by_cases heq : x = a
  · exact .inl (heq ▸ rfl)
  · exact .inr (mem_map_of_mem ((mem_erase_of_ne heq).mpr hx))

lemma UploadOk.active (h : UploadOk w disk u) (hs : u.phase ≠ .aborted) (hen : u.phase ≠ .ended) :
    ∀ d ∈ relied u, d.hash ∈ disk.blobs := by
  apply h.present
  simp [isSettled, hs, hen]

section

variable (hok : UploadOk w disk u)
include hok

lemma UploadOk.found {i : BlobInput}
    (hp : u.phase = .storingBlobs) (hpr : i.digest.hash ∈ disk.blobs) :
    UploadOk w disk { u with
      pending := u.pending.erase i
      found := i.digest :: u.found } where
  started := hok.started
  recent := hok.recent
  present _ d hd := by
    cases mem_cons.mp hd with
    | inl heq =>
      rw [heq]
      exact hpr
    | inr hm => exact hok.active (by simp [hp]) (by simp [hp]) d hm
  covered d hd := by
    have ho := hok.covered d hd
    have hpnd := mem_map_or_erase BlobInput.digest (l := u.pending) (b := d) i
    simp only [relied, map_append, mem_append, cons_append, mem_cons] at ho ⊢
    tauto
  drained := .inl hp

lemma UploadOk.missing {i : BlobInput} (hp : u.phase = .storingBlobs) :
    UploadOk w disk { u with
      pending := u.pending.erase i
      missing := i :: u.missing } where
  started := hok.started
  recent := hok.recent
  present := hok.present
  covered digest hd := by
    have ho := hok.covered digest hd
    have hpnd := mem_map_or_erase BlobInput.digest (l := u.pending) (b := digest) i
    simp only [map_append, mem_append, map_cons, cons_append, mem_cons] at ho ⊢
    tauto
  drained := .inl hp

lemma UploadOk.stage {i : BlobInput} {bytes : Bytes}
    (hp : u.phase = .storingBlobs ∨ u.phase = .aborted) :
    UploadOk w disk { u with
      missing := u.missing.erase i
      staged := ⟨i.digest, bytes, disk.now⟩ :: u.staged } where
  started := hok.started
  recent := hok.recent
  present := hok.present
  covered digest hd := by
    have ho := hok.covered digest hd
    have hmis := mem_map_or_erase BlobInput.digest (l := u.missing) (b := digest) i
    simp only [map_append, mem_append, map_cons, mem_cons] at ho ⊢
    tauto
  drained := by
    cases hp with
    | inl hs => exact .inl hs
    | inr ha => exact .inr (.inl ha)

lemma UploadOk.commit {bl : StagedBlob} (hs : bl ∈ u.staged) (ht : disk.now ≤ bl.modified + w) :
    UploadOk w { disk with blobs := disk.blobs.write bl.digest.hash bl.bytes bl.modified }
      { u with
        staged := u.staged.erase bl
        written := bl.digest :: u.written } where
  started := hok.started
  recent d hd o ho := by
    have hl := Map.lookup_insert_eq disk.blobs bl.digest.hash d.hash ⟨bl.bytes, bl.modified⟩
    change (disk.blobs.write _ _ _).lookup d.hash = some o at ho
    rw [CasObjects.write, hl] at ho
    split at ho
    · cases ho
      exact hok.started.trans ht
    · rename_i hn
      cases mem_cons.mp hd with
      | inl heq => exact absurd (heq ▸ rfl) hn
      | inr hm => exact hok.recent d hm o ho
  present ha d hd := by
    have hd : d ∈ u.found ++ bl.digest :: u.written := hd
    simp only [mem_append, mem_cons] at hd
    refine Finmap.mem_insert.mpr ?_
    rcases hd with hf | rfl | hw
    · exact .inr (hok.present ha d (mem_append_left _ hf))
    · exact .inl rfl
    · exact .inr (hok.present ha d (mem_append_right _ hw))
  covered d hd := by
    have hol := hok.covered d hd
    have hbl := mem_map_or_erase StagedBlob.digest (l := u.staged) (b := d) bl
    simp only [relied, map_append, mem_append, mem_cons] at hol ⊢
    tauto
  drained := by
    refine hok.drained.imp_right (Or.imp_right fun hdr => ?_)
    rw [hdr.2.2] at hs
    cases hs

lemma UploadOk.advance (hd : u.pending = [] ∧ u.missing = [] ∧ u.staged = [])
    (ha : u.isSettled = false) (p : UploadPhase) (time : Option SystemTime) :
    UploadOk w disk { u with
      manifest := { u.manifest with uploadCompletedAt := time }
      phase := p } where
  started := hok.started
  recent := hok.recent
  present _ := hok.present ha
  covered := hok.covered
  drained := .inr (.inr hd)

lemma UploadMove.ok (h : UploadMove s w disk u d' u') : UploadOk w d' u' := by
  cases h with
  | found i hph hp hpr => exact hok.found hph hpr
  | missing i hph hp => exact hok.missing hph
  | stage i bytes hph hm hbyt => exact hok.stage hph
  | fail hph =>
    exact ⟨hok.started, hok.recent, fun ha => by simp [isSettled] at ha,
      hok.covered, .inr (.inl rfl)⟩
  | commit blob hs ht => exact hok.commit hs ht
  | stored hph hp hm hs =>
    exact hok.advance ⟨hp, hm, hs⟩ (by simp [isSettled, hph]) _ _
  | check phase hph hnx =>
    have hd := (hok.drained.resolve_left (by simp [hph])).resolve_left (by simp [hph])
    exact hok.advance hd (by simp [isSettled, hph]) _ _
  | writeManifest modified hph =>
    have hd := (hok.drained.resolve_left (by simp [hph])).resolve_left (by simp [hph])
    have hen := hok.advance hd (by simp [isSettled, hph]) .ended u.manifest.uploadCompletedAt
    exact hen.mono (le_refl _) (fun _ _ ho => .inl ho) (fun _ _ _ hme => hme)

end

end

section

variable {now : SystemTime} {l : Nat} {m : Option Nat}

def Decided (eviction : Eviction) (entry : ManifestEntry) : Prop :=
  entry.hash ∈ eviction.evicted ∨ ∀ digest ∈ entry.digests, digest.hash ∈ eviction.keep

lemma evictManifests_decided (es : List ManifestEntry) :
    ∀ e ∈ es, Decided (evictManifests now l m es) e := by
  intro e hen
  obtain ⟨kept, evicted, hp, hev, hkp⟩ := foldl_visit now l m (newestFirst es) {}
  have hs := ((List.perm_insertionSort _ es).symm.trans hp).mem_iff.mp hen
  rcases List.mem_append.mp hs with hk | he
  · exact .inr fun d hd => (hkp d.hash).mpr (.inr ⟨e, hk, d, hd, rfl⟩)
  · refine .inl ?_
    rw [show (evictManifests now l m es).evicted = _ from hev]
    exact List.mem_append_right _ (List.mem_map_of_mem he)

end

section

variable {disk disk' : LocalDisk} {c c' : Collection}

inductive CollectionMove (disk : LocalDisk) (collection : Collection) :
    CollectionEvent → LocalDisk → Collection → Prop
  | read (hash : String) (owed : Finset String) (entries : List ManifestEntry)
      (hphase : collection.phase = .listing owed entries) :
      CollectionMove disk collection (.read hash) disk { collection with
        phase := .listing (owed.erase hash)
          (entries ++ (Collection.entryOf disk hash).toList) }
  | listed (entries : List ManifestEntry) (hphase : collection.phase = .listing ∅ entries) :
      CollectionMove disk collection .listed disk { collection with
        phase := .evicting
          (evictManifests collection.now collection.lifetime collection.maxSize entries).keep
          (evictManifests collection.now collection.lifetime collection.maxSize entries).evicted }
  | evict (hash : String) (keep : Finset String) (evicted : List String)
      (hphase : collection.phase = .evicting keep evicted) :
      CollectionMove disk collection (.evict hash)
        { disk with manifests := disk.manifests.erase hash }
        { collection with phase := .evicting keep (evicted.erase hash) }
  | sweep (keep : Finset String) (hphase : collection.phase = .evicting keep []) :
      CollectionMove disk collection .sweep disk
        { collection with phase := .sweeping keep disk.now [] }
  | examine (hash : String) (object : CasObject Bytes) (keep : Finset String)
      (now : SystemTime) (doomed : List (String × SystemTime))
      (hphase : collection.phase = .sweeping keep now doomed)
      (hage : hash ∉ keep ∧ BLOB_GRACE < ageOf now object.modified) :
      CollectionMove disk collection (.examine hash) disk
        { collection with phase := .sweeping keep now ((hash, object.modified) :: doomed) }
  | remove (hash : String) (modified : SystemTime) (keep : Finset String) (now : SystemTime)
      (doomed : List (String × SystemTime))
      (hphase : collection.phase = .sweeping keep now doomed)
      (hdoomed : (hash, modified) ∈ doomed) :
      CollectionMove disk collection (.remove hash modified)
        { disk with blobs := disk.blobs.erase hash }
        { collection with phase := .sweeping keep now (doomed.erase (hash, modified)) }
  | finish : CollectionMove disk collection .finish disk { collection with phase := .ended }

lemma Collection.step_move {e : CollectionEvent} (h : c.step disk e = some (disk', c')) :
    CollectionMove disk c e disk' c' := by
  cases e with
  | read hash =>
    simp only [Collection.step] at h
    split at h
    · cases h
      exact .read hash _ _ (by assumption)
    · cases h
  | listed =>
    simp only [Collection.step] at h
    split at h
    · rename_i owed es hp
      split at h
      · rename_i hem
        cases h
        exact .listed es (hem ▸ hp)
      · cases h
    · cases h
  | evict hash =>
    simp only [Collection.step] at h
    split at h
    · split at h
      · cases h
        exact .evict hash _ _ (by assumption)
      · cases h
    · cases h
  | sweep =>
    simp only [Collection.step] at h
    split at h
    · cases h
      exact .sweep _ (by assumption)
    · cases h
  | examine hash =>
    simp only [Collection.step] at h
    split at h
    · rename_i keep now d o hp hobj
      split at h
      · rename_i ha
        cases h
        exact .examine hash o keep now d hp ha
      · cases h
    · cases h
  | remove hash mo =>
    simp only [Collection.step] at h
    split at h
    · split at h
      · rename_i hd
        cases h
        exact .remove hash mo _ _ _ (by assumption) hd
      · cases h
    · cases h
  | finish =>
    simp only [Collection.step] at h
    cases h
    exact .finish

end

end Moon.Proofs
