import Moon.Lib.Run
import Moon.Proofs.Uploads

/-!
# No dangling manifests

A sweep keeps the blobs of the manifests it has read. Those of an upload that stores its manifest
later are protected by their age, unless the upload found them in the store.
-/

namespace Moon.Proofs
open Moon Lib List Function Option CacheState Upload

variable {k : Finset String} {doomed : List (String × SystemTime)} {es : List ManifestEntry}

/-- Every manifest on disk has all of its blobs. -/
def NoDangling (disk : LocalDisk) : Prop :=
  ∀ hash manifest modified, disk.manifests.lookup hash = some ⟨.json manifest, modified⟩ →
    ∀ digest ∈ manifest.collectBlobDigests, digest.hash ∈ disk.blobs

section

variable {storage : LocalStorage} {root : WorkspaceRoot} {w : Nat}
  {us us' : Nat → Option Upload} {disk d' : LocalDisk}
  {collection c' : Collection}

def Late (uploads : Nat → Option Upload) (collection : Collection) (manifest : Manifest) : Prop :=
  ∃ id upload, uploads id = some upload ∧ collection.settled id = false ∧
    upload.phase = .ended ∧ ∀ digest ∈ manifest.collectBlobDigests, digest ∈ relied upload

def Rooted (hash : String) (digests : List Digest) : CollectionPhase → Prop
  | .listing owed es =>
    hash ∈ owed ∨ ∃ entry ∈ es, entry.hash = hash ∧ entry.digests = digests
  | .evicting k evicted => hash ∈ evicted ∨ ∀ digest ∈ digests, digest.hash ∈ k
  | .sweeping k _ _ => ∀ digest ∈ digests, digest.hash ∈ k
  | .ended => True

structure SweepOk (writeTime : Nat) (uploads : Nat → Option Upload) (disk : LocalDisk)
    (settled : Nat → Bool) (keep : Finset String) (now : SystemTime)
    (doomed : List (String × SystemTime)) : Prop where
  started : now ≤ disk.now
  doomed : ∀ entry ∈ doomed, entry.1 ∉ keep ∧ BLOB_GRACE < ageOf now entry.2
  young : ∀ id upload, uploads id = some upload → settled id = false →
    upload.phase ≠ .aborted → now + writeTime ≤ upload.startedAt + BLOB_GRACE

structure CollectionOk (writeTime : Nat) (uploads : Nat → Option Upload) (disk : LocalDisk)
    (collection : Collection) : Prop where
  settled : ∀ id, collection.settled id = true →
    ∃ upload, uploads id = some upload ∧ upload.isSettled = true
  rooted : ∀ hash manifest modified, disk.manifests.lookup hash = some ⟨.json manifest, modified⟩ →
      Rooted hash manifest.collectBlobDigests collection.phase ∨ Late uploads collection manifest
  sweep : ∀ keep now doomed, collection.phase = .sweeping keep now doomed →
    SweepOk writeTime uploads disk collection.settled keep now doomed

structure UploadsEvolve (uploads uploads' : Nat → Option Upload) (now : SystemTime) : Prop where
  forward : ∀ id upload, uploads id = some upload → ∃ u', uploads' id = some u' ∧ Evolves upload u'
  backward : ∀ id u', uploads' id = some u' →
    (∃ upload, uploads id = some upload ∧ Evolves upload u') ∨ now ≤ u'.startedAt

lemma UploadsEvolve.refl (us : Nat → Option Upload) (now : SystemTime) :
    UploadsEvolve us us now where
  forward _ upload h := ⟨upload, h, Evolves.refl upload⟩
  backward _ upload h := .inl ⟨upload, h, Evolves.refl upload⟩

variable {now : SystemTime} {upload u' : Upload} {id : Nat}

lemma UploadsEvolve.update (hu : us id = some upload) (h : Evolves upload u') :
    UploadsEvolve us (update us id (some u')) now where
  forward o old ho := by
    by_cases heq : o = id
    · subst heq
      cases hu.symm.trans ho
      exact ⟨u', update_self .., h⟩
    · exact ⟨old, (update_of_ne heq ..).trans ho, Evolves.refl old⟩
  backward o new hn := by
    by_cases heq : o = id
    · subst heq
      rw [update_self] at hn
      cases hn
      exact .inl ⟨upload, hu, h⟩
    · rw [update_of_ne heq] at hn
      exact .inl ⟨new, hn, Evolves.refl new⟩

lemma UploadsEvolve.start (hn : us id = none) (hno : now ≤ u'.startedAt) :
    UploadsEvolve us (Function.update us id (some u')) now where
  forward o old ho := by
    have hne : o ≠ id := by
      intro heq
      rw [heq, hn] at ho
      cases ho
    exact ⟨old, (update_of_ne hne ..).trans ho, Evolves.refl old⟩
  backward o new hnw := by
    by_cases heq : o = id
    · subst heq
      rw [update_self] at hnw
      cases hnw
      exact .inr hno
    · rw [update_of_ne heq] at hnw
      exact .inl ⟨new, hnw, Evolves.refl new⟩

variable {m : Manifest}

lemma Late.mono (hev : UploadsEvolve us us' now)
    (h : Late us collection m) : Late us' collection m := by
  obtain ⟨id, upload, hu, hs, hen, hr⟩ := h
  obtain ⟨u', hu', hevl⟩ := hev.forward id upload hu
  exact ⟨id, u', hu', hs, hevl.ended hen, fun d hd => hevl.relied (hr d hd)⟩

lemma SweepOk.mono {settled : Nat → Bool} (hwrite : w ≤ BLOB_GRACE)
    (h : SweepOk w us disk settled k now doomed)
    (hev : UploadsEvolve us us' disk.now) (hnw : disk.now ≤ d'.now) :
    SweepOk w us' d' settled k now doomed where
  started := h.started.trans hnw
  doomed := h.doomed
  young id u' hu' hs ha := by
    cases hev.backward id u' hu' with
    | inl ho =>
      obtain ⟨upload, hu, hevl⟩ := ho
      rw [hevl.startedAt]
      exact h.young id upload hu hs (fun heq => ha (hevl.aborted heq))
    | inr hn => exact Int.add_le_add (h.started.trans hn) (Int.ofNat_le.mpr hwrite)

lemma CollectionOk.mono (hwrite : w ≤ BLOB_GRACE) (h : CollectionOk w us disk collection)
    (he : UploadsEvolve us us' disk.now) (hn : disk.now ≤ d'.now) (hm : ∀ hash m modified,
      d'.manifests.lookup hash = some ⟨.json m, modified⟩ →
        disk.manifests.lookup hash = some ⟨.json m, modified⟩ ∨
          Late us' collection m) : CollectionOk w us' d' collection where
  settled id hi := by
    obtain ⟨upload, hu, hs⟩ := h.settled id hi
    obtain ⟨u', hu', hev⟩ := he.forward id upload hu
    exact ⟨u', hu', isSettled_iff.mpr ((isSettled_iff.mp hs).imp hev.aborted hev.ended)⟩
  rooted hash m modified hst := by
    cases hm hash m modified hst with
    | inl ho => exact (h.rooted hash m modified ho).imp_right (Late.mono he)
    | inr hl => exact .inr hl
  sweep k now doomed hp := (h.sweep k now doomed hp).mono hwrite he hn

variable {modified : SystemTime} {hash : String}

variable {event : CollectionEvent}

lemma CollectionMove.ok (hok : CollectionOk w us disk collection)
    (h : CollectionMove disk collection event d' c')
    (hy : event = .sweep → ∀ id upload, us id = some upload →
      collection.settled id = false → upload.phase ≠ .aborted →
        disk.now + w ≤ upload.startedAt + BLOB_GRACE) : CollectionOk w us d' c' := by
  have hr := hok.rooted
  cases h with
  | read hash owed es hp =>
    rw [hp] at hr
    refine ⟨hok.settled, fun o m modified hs => ?_, fun _ _ _ hsw => nomatch hsw⟩
    refine (hr o m modified hs).imp_left (fun h => ?_)
    by_cases heq : o = hash
    · subst heq
      refine .inr ⟨⟨o, modified, m.collectBlobDigests⟩, ?_, rfl, rfl⟩
      simp [Collection.entryOf, hs]
    · rcases h with ho | ⟨e, hen, hsm⟩
      · exact .inl (Finset.mem_erase.mpr ⟨heq, ho⟩)
      · exact .inr ⟨e, mem_append_left _ hen, hsm⟩
  | listed es hp =>
    rw [hp] at hr
    refine ⟨hok.settled, fun o m modified hs => ?_, fun _ _ _ hsw => nomatch hsw⟩
    refine (hr o m modified hs).imp_left ?_
    rintro (ho | ⟨e, hen, rfl, hdg⟩)
    · exact absurd ho (Finset.notMem_empty _)
    · rw [← hdg]
      exact evictManifests_decided es e hen
  | evict hash k evicted hp =>
    rw [hp] at hr
    refine ⟨hok.settled, fun o m modified hs => ?_, fun _ _ _ hsw => nomatch hsw⟩
    have hn : o ≠ hash := by
      intro heq
      change (disk.manifests.erase hash).lookup o = _ at hs
      rw [heq, Finmap.lookup_erase] at hs
      cases hs
    have hol : disk.manifests.lookup o = some ⟨.json m, modified⟩ :=
      (Finmap.lookup_erase_ne hn).symm.trans hs
    refine (hr o m modified hol).imp_left (Or.imp_left fun hm => ?_)
    exact (mem_erase_of_ne hn).mpr hm
  | sweep k hp =>
    rw [hp] at hr
    refine ⟨hok.settled, fun o m modified hs => ?_, fun _ _ _ hsw => ?_⟩
    · exact (hr o m modified hs).imp_left (fun h => h.resolve_left not_mem_nil)
    · cases hsw
      exact ⟨le_refl _, by simp, hy rfl⟩
  | examine hash object k now doomed hp ha =>
    obtain ⟨hst, hd, hy⟩ := hok.sweep k now doomed hp
    rw [hp] at hr
    refine ⟨hok.settled, hr, fun _ _ _ hsw => ?_⟩
    cases hsw
    refine ⟨hst, fun e hen => ?_, hy⟩
    cases mem_cons.mp hen with
    | inl heq =>
      rw [heq]
      exact ha
    | inr hm => exact hd e hm
  | remove hash modified k now doomed hp hm =>
    obtain ⟨hst, hd, hy⟩ := hok.sweep k now doomed hp
    rw [hp] at hr
    refine ⟨hok.settled, hr, fun _ _ _ hsw => ?_⟩
    cases hsw
    exact ⟨hst, fun e hen => hd e (mem_of_mem_erase hen), hy⟩
  | finish =>
    exact ⟨hok.settled, fun _ _ _ _ => .inl trivial, fun _ _ _ hsw => nomatch hsw⟩

/-- The uploads that a collection knows nothing of: they were not over when it listed the
manifests, and are not aborted. -/
def Overlapping (s : CacheState) (id : Nat) (upload : Upload) : Prop :=
  ∃ collection other, s.collections id = some collection ∧ s.uploads other = some upload ∧
    collection.settled other = false ∧ upload.phase ≠ .aborted

/-- A sweep starts within the grace period of the uploads it overlaps with, and removes no object
that such an upload found in the store, nor one that was replaced after it was examined. -/
def Considerate (writeTime : Nat) (s : CacheState) : CacheEvent → Prop
  | .startUpload _ _ m => CarriesStreams m
  | .collection id .sweep => ∀ upload, Overlapping s id upload →
    s.disk.now + writeTime ≤ upload.startedAt + BLOB_GRACE
  | .collection id (.remove hash modified) =>
    (∀ object, s.disk.blobs.lookup hash = some object → object.modified = modified) ∧
      ∀ upload, Overlapping s id upload → hash ∉ upload.found.map Digest.hash
  | _ => True

structure CacheOk (writeTime : Nat) (s : CacheState) : Prop where
  no_dangling : NoDangling s.disk
  uploads : ∀ id upload, s.uploads id = some upload → UploadOk writeTime s.disk upload
  collections : ∀ id collection, s.collections id = some collection →
    CollectionOk writeTime s.uploads s.disk collection

lemma start_ok (root : WorkspaceRoot) (d : Digest) (hs : CarriesStreams m) :
    UploadOk w disk (start root disk d m) := by
  have hi : ∀ r ∈ m.collectBlobDigests, r ∈ (m.collectBlobInputs root).map BlobInput.digest :=
    fun r => mem_collectBlobInputs root hs
  unfold start
  dsimp only
  split
  · rename_i hem
    rw [isEmpty_iff.mp hem] at hi
    exact ⟨le_refl _, by simp, by simp [relied], fun r hr => (nomatch hi r hr),
      .inr (.inr ⟨rfl, rfl, rfl⟩)⟩
  · refine ⟨le_refl _, by simp, by simp [relied], fun r hr => ?_, .inl rfl⟩
    exact .inr (.inr (mem_retainUnseen not_mem_nil (hi r hr)))

lemma not_old_of_recent {now st modified : Int}
    (hyng : now + w ≤ st + BLOB_GRACE) (hrcn : st ≤ modified + w) :
    ¬ BLOB_GRACE < ageOf now modified := by
  unfold ageOf
  omega

variable {s : CacheState}

lemma removed_unneeded (hok : CacheOk w s) (hcl : s.collections id = some collection)
    (hph : collection.phase = .sweeping k now doomed) (hdm : (hash, modified) ∈ doomed)
    (hsf : Considerate w s (.collection id (.remove hash modified))) :
    (∀ o upload, s.uploads o = some upload → collection.settled o = false →
      upload.phase ≠ .aborted → ∀ d ∈ relied upload, d.hash ∈ s.disk.blobs → d.hash ≠ hash) ∧
    ∀ st m t, s.disk.manifests.lookup st = some ⟨.json m, t⟩ →
      ∀ d ∈ m.collectBlobDigests, d.hash ≠ hash := by
  have hc := hok.collections id collection hcl
  obtain ⟨_, hol, hy⟩ := hc.sweep k now doomed hph
  obtain ⟨hunk, hag⟩ := hol (hash, modified) hdm
  obtain ⟨hsm, hf⟩ := hsf
  have hrl : ∀ o upload, s.uploads o = some upload →
      collection.settled o = false → upload.phase ≠ .aborted →
        ∀ d ∈ relied upload, d.hash ∈ s.disk.blobs → d.hash ≠ hash := by
    intro o upload hu hs ha d hd hp heq
    cases mem_append.mp hd with
    | inl hm =>
      have hun := hf upload ⟨collection, o, hcl, hu, hs, ha⟩
      exact hun (heq ▸ mem_map_of_mem hm)
    | inr hm =>
      -- it wrote the object, which is too young for the sweep
      obtain ⟨ob, ho⟩ := Finmap.mem_iff.mp hp
      have hr := (hok.uploads o upload hu).recent d hm ob ho
      rw [hsm ob (heq ▸ ho)] at hr
      exact not_old_of_recent (hy o upload hu hs ha) hr hag
  refine ⟨hrl, fun st m t hst d hd heq => ?_⟩
  have hp := hok.no_dangling st m t hst d hd
  have hrt := hc.rooted st m t hst
  rw [hph] at hrt
  cases hrt with
  | inl hk => exact hunk (heq ▸ hk d hd)
  | inr hl =>
    obtain ⟨o, upload, hu, hs, hen, hal⟩ := hl
    exact hrl o upload hu hs (by simp [hen]) d (hal d hd) hp heq

lemma UploadMove.no_dangling (hds : NoDangling disk) (hok : UploadOk w disk upload)
    (h : UploadMove storage w disk upload d' u') : NoDangling d' := by
  intro hash m modified hs d hd
  refine h.blobs.2 d.hash ?_
  cases h.manifests hs with
  | inl ho => exact hds hash m modified ho d hd
  | inr hn =>
    obtain ⟨hp, _, rfl⟩ := hn
    rw [collectBlobDigests_serialized] at hd
    have hr := hok.covers (by simp [hp]) (by simp [hp]) d hd
    exact hok.active (by simp [hp]) (by simp [hp]) d hr

lemma UploadMove.late (hu : us id = some upload) (hok : UploadOk w disk upload)
    (hc : CollectionOk w us disk collection) (h : UploadMove storage w disk upload d' u')
    (hst : d'.manifests.lookup hash = some ⟨.json m, modified⟩) :
    disk.manifests.lookup hash = some ⟨.json m, modified⟩ ∨
      Late (update us id (some u')) collection m := by
  refine (h.manifests hst).imp_right fun ⟨hp, hen, hm⟩ => ?_
  refine ⟨id, u', update_self .., ?_, hen, fun d hd => ?_⟩
  · by_contra hs
    obtain ⟨o, ho, hov⟩ := hc.settled id (by simpa using hs)
    cases hu.symm.trans ho
    simp [isSettled, hp] at hov
  · rw [hm, collectBlobDigests_serialized] at hd
    exact h.evolves.relied (hok.covers (by simp [hp]) (by simp [hp]) d hd)

lemma CollectionMove.disk_le (h : CollectionMove disk collection event d' c') :
    d'.now = disk.now ∧ (∀ hash ob, d'.blobs.lookup hash = some ob →
        disk.blobs.lookup hash = some ob) ∧
      ∀ hash ob, d'.manifests.lookup hash = some ob → disk.manifests.lookup hash = some ob := by
  have her : ∀ {α : Type} (os : CasObjects α) {hash o : String} {ob : CasObject α},
      (os.erase hash).lookup o = some ob → os.lookup o = some ob := by
    intro α os hash o ob hl
    by_cases heq : o = hash
    · rw [heq, Finmap.lookup_erase] at hl
      cases hl
    · rwa [Finmap.lookup_erase_ne heq] at hl
  cases h with
  | evict => exact ⟨rfl, fun _ _ h => h, fun _ _ => her disk.manifests⟩
  | remove => exact ⟨rfl, fun _ _ => her disk.blobs, fun _ _ h => h⟩
  | _ => exact ⟨rfl, fun _ _ h => h, fun _ _ h => h⟩

lemma CollectionMove.kept (hok : CacheOk w s) (hc : s.collections id = some collection)
    (hsf : Considerate w s (.collection id event))
    (h : CollectionMove s.disk collection event d' c') :
    (∀ o upload, s.uploads o = some upload → upload.isSettled = false →
      ∀ d ∈ relied upload, d.hash ∈ s.disk.blobs → d.hash ∈ d'.blobs) ∧
    ∀ st m t, s.disk.manifests.lookup st = some ⟨.json m, t⟩ →
      ∀ d ∈ m.collectBlobDigests, d.hash ∈ s.disk.blobs → d.hash ∈ d'.blobs := by
  cases h with
  | remove hash modified k now doomed hph hdm =>
    obtain ⟨hr, hst⟩ := removed_unneeded hok hc hph hdm hsf
    refine ⟨fun o upload hu ha d hd hp => ?_, fun st m t hl d hd hp => ?_⟩
    · have hs : collection.settled o = false := by
        by_contra hs
        obtain ⟨same, hsm, ho⟩ := (hok.collections id collection hc).settled o (by simpa using hs)
        cases hu.symm.trans hsm
        simp [ha] at ho
      have hab : upload.phase ≠ .aborted := by
        intro heq
        simp [isSettled, heq] at ha
      exact Finmap.mem_erase.mpr ⟨hr o upload hu hs hab d hd hp, hp⟩
    · exact Finmap.mem_erase.mpr ⟨hst st m t hl d hd, hp⟩
  | _ => exact ⟨fun _ _ _ _ _ _ h => h, fun _ _ _ _ _ _ h => h⟩

lemma idle_ok (hd : NoDangling disk) : CacheOk w (idle disk) where
  no_dangling := hd
  uploads _ _ h := nomatch h
  collections _ _ h := nomatch h

lemma CacheOk.outside (hwrite : w ≤ BLOB_GRACE) (hok : CacheOk w s) (hn : s.disk.now ≤ d'.now)
    (hb : d'.blobs = s.disk.blobs) (hm : d'.manifests = s.disk.manifests) :
    CacheOk w { s with disk := d' } where
  no_dangling hash m modified hs digest hd := by
    change d'.manifests.lookup hash = _ at hs
    change digest.hash ∈ d'.blobs
    rw [hm] at hs
    rw [hb]
    exact hok.no_dangling hash m modified hs digest hd
  uploads id upload hu :=
    (hok.uploads id upload hu).mono hn (fun _ _ ho => .inl (hb ▸ ho))
      (fun _ _ _ hme => hb.symm ▸ hme)
  collections id collection hc :=
    (hok.collections id collection hc).mono hwrite (UploadsEvolve.refl _ _) hn
      (fun _ _ _ hs => .inl (hm ▸ hs))

section

variable (hwrite : w ≤ BLOB_GRACE) (hok : CacheOk w s)
include hwrite hok

lemma CacheOk.startUpload (hn : s.uploads id = none) (hs : upload.startedAt = s.disk.now)
    (hu : UploadOk w s.disk upload) :
    CacheOk w { s with uploads := update s.uploads id (some upload) } where
  no_dangling := hok.no_dangling
  uploads := forall_update_some hok.uploads hu
  collections o collection hc :=
    (hok.collections o collection hc).mono hwrite
      (UploadsEvolve.start hn hs.ge) (le_refl _) (fun _ _ _ hst => .inl hst)

lemma CacheOk.uploadStep (hu : s.uploads id = some upload)
    (hm : UploadMove storage w s.disk upload d' u') :
    CacheOk w { s with
      disk := d'
      uploads := update s.uploads id (some u') } where
  no_dangling := hm.no_dangling hok.no_dangling (hok.uploads id upload hu)
  uploads := by
    have ho (o : Nat) (f : Upload) (hf : s.uploads o = some f) : UploadOk w d' f :=
      (hok.uploads o f hf).mono hm.now_eq.ge hm.blobs.1 (fun _ d _ => hm.blobs.2 d.hash)
    exact forall_update_some ho (UploadMove.ok (hok.uploads id upload hu) hm)
  collections o collection hcl := by
    have hc := hok.collections o collection hcl
    exact hc.mono hwrite (UploadsEvolve.update hu hm.evolves) hm.now_eq.ge
      (fun _ _ _ => hm.late hu (hok.uploads id upload hu) hc)

lemma CacheOk.collectionStep (hc : s.collections id = some collection)
    (hsf : Considerate w s (.collection id event))
    (hm : CollectionMove s.disk collection event d' c') :
    CacheOk w { s with
      disk := d'
      collections := update s.collections id (some c') } where
  no_dangling hash m modified hs digest hd := by
    have ho := hm.disk_le.2.2 hash _ hs
    exact (hm.kept hok hc hsf).2 hash m modified ho digest hd
      (hok.no_dangling hash m modified ho digest hd)
  uploads o upload hu :=
    (hok.uploads o upload hu).mono hm.disk_le.1.ge
      (fun hash ob hob => .inl (hm.disk_le.2.1 hash ob hob))
      (fun hac => (hm.kept hok hc hsf).1 o upload hu hac)
  collections := by
    have hos (o : Nat) (f : Collection) (hf : s.collections o = some f) :
        CollectionOk w s.uploads d' f :=
      (hok.collections o f hf).mono hwrite (UploadsEvolve.refl _ _)
        hm.disk_le.1.ge (fun hash _ _ hs => .inl (hm.disk_le.2.2 hash _ hs))
    have hmvd : CollectionOk w s.uploads d' c' := by
      apply CollectionMove.ok (hok.collections id collection hc) hm
      intro hsw another upload hu hst ha
      subst hsw
      exact hsf upload ⟨collection, another, hc, hu, hst, ha⟩
    exact forall_update_some hos hmvd

end

lemma CacheOk.step {s' : CacheState} {event : CacheEvent} (hwrite : w ≤ BLOB_GRACE)
    (hok : CacheOk w s) (hsf : Considerate w s event)
    (h : s.step storage root w event = some s') : CacheOk w s' := by
  cases event with
  | tick now =>
    simp only [CacheState.step] at h
    split_ifs at h with hl
    cases h
    exact hok.outside hwrite hl rfl rfl
  | edit path c =>
    cases h
    exact hok.outside hwrite (le_refl _) rfl rfl
  | startUpload id d m =>
    simp only [CacheState.step] at h
    split_ifs at h with hn
    cases h
    refine hok.startUpload hwrite hn ?_ (start_ok root d hsf)
    unfold start
    dsimp only
    split <;> rfl
  | upload id event =>
    obtain ⟨upload, hu, hr⟩ := bind_eq_some_iff.mp h
    obtain ⟨⟨d', u'⟩, hs, hen⟩ := bind_eq_some_iff.mp hr
    cases hen
    exact hok.uploadStep hwrite hu (step_move hs)
  | startCollection id lifetime maxSize =>
    simp only [CacheState.step] at h
    split_ifs at h
    cases h
    refine ⟨hok.no_dangling, hok.uploads, forall_update_some hok.collections
      ⟨fun o ho => ?_, fun hash m modified hsto => ?_, nofun⟩⟩
    · cases hu : s.uploads o with
      | none => simp [Collection.start, settled, hu] at ho
      | some upload =>
        simp only [Collection.start, settled, hu, any_some] at ho
        exact ⟨upload, rfl, ho⟩
    · exact .inl (.inl (Finmap.mem_keys.mpr (Finmap.mem_iff.mpr ⟨_, hsto⟩)))
  | collection id event =>
    obtain ⟨collection, hc, hr⟩ := bind_eq_some_iff.mp h
    obtain ⟨⟨d', c'⟩, hs, hen⟩ := bind_eq_some_iff.mp hr
    cases hen
    exact hok.collectionStep hwrite hc hsf (Collection.step_move hs)

end

def hiInput : BlobInput := ⟨.inline [104, 105], ⟨"hi", 2⟩⟩

def oldBlobDisk : LocalDisk :=
  { emptyDisk with
    blobs := CasObjects.write ∅ "hi" [104, 105] 0
    now := 2 * BLOB_GRACE }

def dedupRace : List CacheEvent :=
  [.startUpload 0 ⟨"d0", 2⟩ printedHi, .upload 0 (.look hiInput),
    .startCollection 0 BLOB_GRACE none, .collection 0 .listed, .collection 0 .sweep,
    .collection 0 (.examine "hi"), .collection 0 (.remove "hi" 0), .collection 0 .finish,
    .upload 0 .stored, .upload 0 .checkManifest, .upload 0 (.writeManifest (2 * BLOB_GRACE))]

/-- A manifest with its blob, and an old object that none refers to. -/
def sharedDisk : LocalDisk :=
  { emptyDisk with
    blobs := CasObjects.write (CasObjects.write ∅ "yo" [121, 111] 0) "junk" [0] 0
    manifests := CasObjects.write ∅ "d1" (.json printedYo) (2 * BLOB_GRACE)
    now := 2 * BLOB_GRACE }

def freshUpload : List CacheEvent :=
  [.startUpload 0 ⟨"d0", 2⟩ printedHi, .upload 0 (.look hiInput),
    .startCollection 0 BLOB_GRACE none, .collection 0 (.read "d1"), .collection 0 .listed,
    .upload 0 (.stage hiInput), .collection 0 .sweep, .collection 0 (.examine "junk"),
    .upload 0 (.commit ⟨⟨"hi", 2⟩, [104, 105], 2 * BLOB_GRACE⟩), .collection 0 (.remove "junk" 0),
    .collection 0 .finish, .upload 0 .stored, .upload 0 .checkManifest,
    .upload 0 (.writeManifest (2 * BLOB_GRACE))]

end Moon.Proofs
