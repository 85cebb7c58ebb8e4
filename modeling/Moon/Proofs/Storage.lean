import Moon.Proofs.ManifestPacker
import Moon.Proofs.StorageBackend

/-! # The storage over its backends -/

namespace Moon.Proofs
open Lib List Function

section

variable {σ : Type} {env : StorageEnv σ} {r : WorkspaceRoot} {k : PersistTask σ}
  {present : σ → Digest → Prop}

/-- A manifest with other times of its upload. -/
def uploaded (manifest : Manifest) (startedAt completedAt : Option SystemTime) : Manifest :=
  { manifest with uploadStartedAt := startedAt, uploadCompletedAt := completedAt }

lemma storeManifestBlobs_present (ht : Truthful k.backend present)
    (hh : k.manifest.isHydrated) {s t : σ} {m : Manifest}
    (h : (storeManifestBlobs env r k.backend k.manifest).run s = (some m, t)) :
    (∃ startedAt completedAt, m = uploaded k.manifest startedAt completedAt) ∧
      ∀ d ∈ k.manifest.collectBlobDigests, present t d := by
  unfold storeManifestBlobs at h
  dsimp only at h
  split at h
  · rename_i hem
    have heq := (run_pure h).1
    cases heq
    refine ⟨⟨_, _, rfl⟩, fun d hd => ?_⟩
    have hi := mem_collectBlobInputs r (carriesStreams_of_hydrated hh) hd
    rw [isEmpty_iff.mp hem] at hi
    cases hi
  · obtain ⟨stored, u, hs, hr⟩ := run_bind (run_get_bind h)
    have hen := run_get_bind hr
    split at hen
    · rename_i hsc
      obtain ⟨heq, hu⟩ := run_pure hen
      cases heq
      refine ⟨⟨_, _, rfl⟩, fun d hd => ?_⟩
      have hi := mem_collectBlobInputs r (carriesStreams_of_hydrated hh) hd
      rw [← hu]
      exact storeBlobsBatched_success ht hs hsc d hi
    · cases (run_pure hen).1

lemma persistManifestInBackend_run (s : σ) :
    ((persistManifestInBackend env r k).run s).2 =
      match (storeManifestBlobs env r k.backend k.manifest).run s with
      | (some m, t) =>
        if k.backend.capabilities.storeManifests then
          ((k.backend.storeManifest k.digest m).run t).2
        else t
      | (none, t) => t := by
  unfold persistManifestInBackend
  cases hb : (storeManifestBlobs env r k.backend k.manifest).run s with
  | mk a t =>
    rw [run_bind_of _ hb]
    cases a with
    | none => rfl
    | some m =>
      dsimp only
      by_cases hs : k.backend.capabilities.storeManifests
      · rw [if_pos hs, if_pos hs]
        rfl
      · rw [if_neg hs, if_neg hs]
        rfl

/-- Whatever fails or is cut short: when persisting stores the manifest, with the times of its
upload, every blob with content that the manifest refers to is in the backend. -/
theorem store_manifest_after_blobs (env : StorageEnv σ) (root : WorkspaceRoot)
    (task : PersistTask σ) (htruthful : Truthful task.backend present)
    (hmanifest : task.manifest.isHydrated = true ∨ ∃ sha256 fs outputs exec digest source,
        createCacheManifest sha256 fs root outputs exec digest source = .ok task.manifest) (s : σ) :
    (∃ t, (storeManifestBlobs env root task.backend task.manifest).run s = (none, t) ∧
        ((persistManifestInBackend env root task).run s).2 = t) ∨
      ∃ startedAt completedAt t,
        (storeManifestBlobs env root task.backend task.manifest).run s =
          (some (uploaded task.manifest startedAt completedAt), t) ∧
        (∀ digest ∈ task.manifest.collectBlobDigests, present t digest) ∧
        ((persistManifestInBackend env root task).run s).2 =
          if task.backend.capabilities.storeManifests then
            ((task.backend.storeManifest task.digest
              (uploaded task.manifest startedAt completedAt)).run t).2
          else t := by
  have hh : task.manifest.isHydrated := by
    cases hmanifest with
    | inl hh => exact hh
    | inr hp =>
      obtain ⟨sha256, fs, outputs, exec, digest, source, hp⟩ := hp
      exact (createCacheManifest_packed hp).isHydrated
  rw [persistManifestInBackend_run]
  cases hb : (storeManifestBlobs env root task.backend task.manifest).run s with
  | mk a t =>
    cases a with
    | none => exact .inl ⟨t, rfl, rfl⟩
    | some manifest =>
      obtain ⟨⟨startedAt, completedAt, rfl⟩, hpr⟩ := storeManifestBlobs_present htruthful hh hb
      exact .inr ⟨startedAt, completedAt, t, rfl, hpr, rfl⟩

end

structure Memory where
  blobs : Blobs := []
  manifests : List (Digest × Manifest) := []

def Memory.storeBlobs (memory : Memory) (inputs : List BlobInput) : Memory :=
  { memory with
    blobs := memory.blobs ++ inputs.map (fun input => (input.digest, input.content)) }

def memoryBackend (id : String) : StorageBackend (String → Memory) where
  id := id
  capabilities := {}
  isReadable := true
  isWritable := true
  retrieveManifest digest := fun s =>
    (.ok (((s id).manifests.find? (fun entry => entry.1 = digest)).map Prod.snd), s)
  storeManifest digest manifest := fun s =>
    (.ok (), update s id { s id with manifests := (s id).manifests ++ [(digest, manifest)] })
  findMissingBlobs ds := fun s =>
    (.ok (ds.filter (fun digest => (s id).blobs.get digest = none)), s)
  storeBlobs inputs _ := fun s =>
    (.ok (inputs.map BlobInput.digest), update s id ((s id).storeBlobs inputs))
  retrieveBlobs ds _ := fun s =>
    (.ok (ds.filterMap (fun digest =>
      ((s id).blobs.get digest).map (fun content => (digest, content)))), s)

def inSpawnOrder : Schedule where
  order := id
  order_perm _ := List.Perm.refl _
  interrupt := none

def memoryEnv : StorageEnv (String → Memory) where
  now _ := 0
  readFileBytes _ _ := .ok []
  schedule _ := inSpawnOrder

lemma get_ne_none_iff {blobs : Blobs} {d : Digest} :
    blobs.get d ≠ none ↔ d ∈ blobs.map Prod.fst := by
  unfold Blobs.get
  rw [Ne, Option.map_eq_none_iff, find?_eq_none]
  simp

lemma memoryBackend_truthful (id : String) :
    Truthful (memoryBackend id) (fun s d => (s id).blobs.get d ≠ none) where
  find_keeps h _ hp := by
    cases h
    exact hp
  find_reports h d hd hm := by
    cases h
    simpa [hd] using hm
  store_keeps h d hp := by
    cases h
    rw [get_ne_none_iff] at hp ⊢
    simp only [update_self, Memory.storeBlobs, map_append, mem_append]
    exact .inl hp
  store_reports {inputs} _ _ _ _ h := by
    cases h
    refine ⟨List.Subperm.refl _, fun d hd => ?_⟩
    rw [get_ne_none_iff]
    simp only [update_self, Memory.storeBlobs, map_append, mem_append, map_map]
    exact .inr hd

def slashRoot : WorkspaceRoot := ⟨⟨true, []⟩, rfl⟩

/-- A backend with room for one blob in a batch. -/
def narrowBackend : StorageBackend (String → Memory) :=
  { memoryBackend "local" with capabilities := { maxBatchTotalSizeBytes := 350 } }

lemma narrowBackend_truthful :
    Truthful narrowBackend (fun s digest => (s "local").blobs.get digest ≠ none) :=
  have h := memoryBackend_truthful "local"
  ⟨h.find_keeps, h.find_reports, @h.store_keeps, @h.store_reports⟩

def distBytes (name : String) (bytes : Bytes) (digest : Digest) : ManifestFile where
  path := ⟨["dist", name]⟩
  bytes := some bytes
  digest := some digest

/-- Two of the files have the same content, and one blob is there already. -/
def distTask : PersistTask (String → Memory) where
  backend := narrowBackend
  digest := ⟨"d0", 2⟩
  manifest :=
    { stdoutBytes := some [104, 105], stdoutDigest := some ⟨"a1", 2⟩
      files := [distBytes "a.js" [1] ⟨"b2", 1⟩, distBytes "b.js" [1] ⟨"b2", 1⟩,
        distBytes "c.js" [3, 4, 5] ⟨"c3", 3⟩] }

def withStdout : String → Memory := fun _ => { blobs := [(⟨"a1", 2⟩, .inline [104, 105])] }

theorem dist_stored_after_blobs :
    (createBatches (distTask.manifest.collectBlobInputs slashRoot) 350
        (fun input => asUsize input.digest.size)).length = 4 ∧
      distTask.manifest.isHydrated = true ∧
      ∃ startedAt completedAt t, (storeManifestBlobs memoryEnv slashRoot distTask.backend
          distTask.manifest).run withStdout =
            (some (uploaded distTask.manifest startedAt completedAt), t) ∧
        ∀ digest ∈ distTask.manifest.collectBlobDigests, (t "local").blobs.get digest ≠ none := by
  refine ⟨by decide, by decide, ?_⟩
  rcases store_manifest_after_blobs memoryEnv slashRoot distTask narrowBackend_truthful (.inl rfl)
    withStdout with ⟨t, hr, -⟩ | ⟨startedAt, completedAt, t, hr, hp, -⟩
  · have hs : ((storeManifestBlobs memoryEnv slashRoot distTask.backend
      distTask.manifest).run withStdout).1.isSome := by decide +kernel
    rw [hr] at hs
    cases hs
  · exact ⟨startedAt, completedAt, t, hr, hp⟩

/-! ## Failover -/

section

variable {σ : Type} {env : StorageEnv σ} {storage : Storage σ}

/-- What the readable backends answer, all of them asked. -/
def manifestAnswers (digest : Digest) :
    List (StorageBackend σ) → StateM σ (List (Except StorageError (Option Manifest)))
  | [] => pure []
  | backend :: bs => do
    if !backend.isReadable then
      manifestAnswers digest bs
    else
      let answer ← backend.retrieveManifest digest
      let answers ← manifestAnswers digest bs
      return answer :: answers

/-- What the readable backends answer, all of them asked. -/
def blobAnswers (env : StorageEnv σ) (digests : List Digest) :
    List (StorageBackend σ) → StateM σ (List Blobs)
  | [] => pure []
  | backend :: bs => do
    if !backend.isReadable then
      blobAnswers env digests bs
    else
      let result ← backend.retrieveBlobsBatched env.schedule digests
      let answers ← blobAnswers env digests bs
      return result.blobs :: answers

def firstManifest :
    List (Except StorageError (Option Manifest)) → Except StorageError (Option Manifest)
  | [] => .ok none
  | .ok none :: rs => firstManifest rs
  | a :: _ => a

def firstBlobs : List Blobs → Blobs
  | [] => []
  | blobs :: rs => if blobs.isEmpty then firstBlobs rs else blobs

lemma loadManifestFrom_eq (d : Digest) (bs : List (StorageBackend σ)) (s : σ) :
    ((storage.loadManifestFrom d bs).run s).1.map (Option.map LoadedManifest.manifest) =
      firstManifest ((manifestAnswers d bs).run s).1 := by
  induction bs generalizing s with
  | nil => rfl
  | cons backend bs ih =>
    rw [Storage.loadManifestFrom, manifestAnswers]
    by_cases hr : backend.isReadable
    · simp only [hr, Bool.not_true, Bool.false_eq_true, if_false]
      cases ha : (backend.retrieveManifest d).run s with
      | mk a t =>
        rw [run_bind_of _ ha, run_bind_of _ ha]
        cases a with
        | error error => rfl
        | ok f =>
          cases f with
          | none => exact ih t
          | some m => rfl
    · simp only [hr, Bool.not_false, if_true]
      exact ih s

lemma retrieveBlobsFrom_eq (ds : List Digest) (bs : List (StorageBackend σ)) (s : σ) :
    ((Storage.retrieveBlobsFrom env ds bs).run s).1 =
      firstBlobs ((blobAnswers env ds bs).run s).1 := by
  induction bs generalizing s with
  | nil => rfl
  | cons backend bs ih =>
    rw [Storage.retrieveBlobsFrom, blobAnswers]
    by_cases hr : backend.isReadable
    · simp only [hr, Bool.not_true, Bool.false_eq_true, if_false]
      cases hrs : (backend.retrieveBlobsBatched env.schedule ds).run s with
      | mk r t =>
        rw [run_bind_of _ hrs, run_bind_of _ hrs]
        change _ = firstBlobs (r.blobs :: ((blobAnswers env ds bs).run t).1)
        rw [firstBlobs]
        by_cases hem : r.blobs.isEmpty
        · rw [if_pos hem, if_pos hem]
          exact ih t
        · rw [if_neg hem, if_neg hem]
          rfl
    · simp only [hr, Bool.not_false, if_true]
      exact ih s

/-- No backend fails before the first that has the manifest. -/
def ErrorsComeLate (answers : List (Except StorageError (Option Manifest))) : Prop :=
  ∀ before error after, answers = before ++ .error error :: after →
    (∃ manifest, .ok (some manifest) ∈ after) → ∃ manifest, .ok (some manifest) ∈ before

/-- The first backend that answers with any blob answers with every requested blob that a
later one has. -/
def FirstAnswerComplete (digests : List Digest) (answers : List Blobs) : Prop :=
  ∀ before first after, answers = before ++ first :: after → (∀ blobs ∈ before, blobs = []) →
    first ≠ [] → ∀ blobs ∈ after, ∀ digest ∈ digests,
      digest ∈ blobs.map Prod.fst → digest ∈ first.map Prod.fst

lemma firstManifest_found_iff (rs : List (Except StorageError (Option Manifest))) :
    ((∃ m, .ok (some m) ∈ rs) → ∃ m, firstManifest rs = .ok (some m)) ↔ ErrorsComeLate rs := by
  induction rs with
  | nil => simp [ErrorsComeLate]
  | cons a rs ih =>
    cases a with
    | error error =>
      simp only [firstManifest, reduceCtorEq, exists_false, imp_false, mem_cons, false_or]
      constructor
      · intro hn b error' after hs ha
        refine absurd ha fun ⟨m, hm⟩ => hn ⟨m, ?_⟩
        cases b with
        | nil =>
          cases hs
          exact hm
        | cons first b =>
          obtain ⟨_, rfl⟩ := cons_eq_cons.mp hs
          simp [hm]
      · intro hl hfd
        obtain ⟨m, hm⟩ := hl [] error rs rfl hfd
        cases hm
    | ok f =>
      cases f with
      | some m =>
        simp only [firstManifest, Except.ok.injEq, Option.some.injEq, exists_eq', implies_true,
          true_iff]
        intro b error after hs _
        cases b with
        | nil => cases hs
        | cons first b =>
          have hf := (cons_eq_cons.mp hs).1
          exact ⟨m, hf ▸ mem_cons_self⟩
      | none =>
        simp only [mem_cons, Except.ok.injEq, reduceCtorEq, false_or, firstManifest, ih]
        constructor
        · intro hl b error after hs ha
          cases b with
          | nil => cases hs
          | cons first b =>
            obtain ⟨m, hm⟩ := hl b error after (cons_eq_cons.mp hs).2 ha
            exact ⟨m, mem_cons_of_mem _ hm⟩
        · intro hl b error after hs ha
          obtain ⟨m, hm⟩ := hl (.ok none :: b) error after (by rw [hs, cons_append]) ha
          exact ⟨m, by simpa using hm⟩

lemma firstBlobs_complete_iff (ds : List Digest) (rs : List Blobs) :
    (∀ d ∈ ds, ∀ blobs ∈ rs, d ∈ blobs.map Prod.fst →
        d ∈ (firstBlobs rs).map Prod.fst) ↔ FirstAnswerComplete ds rs := by
  induction rs with
  | nil => simp [FirstAnswerComplete]
  | cons a rs ih =>
    by_cases hem : a = []
    · subst hem
      have hf : firstBlobs ([] :: rs) = firstBlobs rs := rfl
      simp only [hf, mem_cons, forall_eq_or_imp, map_nil, not_mem_nil, false_imp_iff, true_and, ih]
      constructor
      · intro hc b f after hs hbf hn
        cases b with
        | nil => exact absurd (cons_eq_cons.mp hs).1.symm hn
        | cons hed b =>
          exact hc b f after (cons_eq_cons.mp hs).2
            (fun blobs hb => hbf blobs (mem_cons_of_mem _ hb)) hn
      · intro hc b f after hs hbf
        refine hc ([] :: b) f after (by rw [hs, cons_append]) ?_
        intro blobs hb
        cases mem_cons.mp hb with
        | inl heq => exact heq
        | inr hr => exact hbf blobs hr
    · have hf : firstBlobs (a :: rs) = a := by
        rw [firstBlobs, if_neg (by simpa using hem)]
      rw [hf]
      constructor
      · intro ha b f after hs hbf _ blobs hb d hd hm
        cases b with
        | nil =>
          obtain ⟨rfl, rfl⟩ := cons_eq_cons.mp hs
          exact ha d hd blobs (mem_cons_of_mem _ hb) hm
        | cons hed b =>
          have hh := hbf hed mem_cons_self
          exact absurd ((cons_eq_cons.mp hs).1.trans hh) hem
      · intro hc d hd blobs hb hm
        cases mem_cons.mp hb with
        | inl heq => exact heq ▸ hm
        | inr hr =>
          exact hc [] a rs rfl (by simp) hem blobs hr d hd hm

/-- Loading a manifest and retrieving blobs fail over to the other backends exactly if no
error comes before the first manifest, and the first blobs are all there are. -/
theorem failover_iff (env : StorageEnv σ) (storage : Storage σ) (digest : Digest)
    (digests : List Digest) (s : σ) :
    (((∃ manifest, .ok (some manifest) ∈ ((manifestAnswers digest storage.getBackends).run s).1) →
        ∃ loaded, ((storage.loadManifest digest).run s).1 = .ok (some loaded)) ∧
      ∀ requested ∈ digests, ∀ blobs ∈ ((blobAnswers env digests storage.getBackends).run s).1,
        requested ∈ blobs.map Prod.fst →
          requested ∈ ((storage.retrieveBlobs env digests).run s).1.map Prod.fst) ↔
      ErrorsComeLate ((manifestAnswers digest storage.getBackends).run s).1 ∧
        FirstAnswerComplete digests ((blobAnswers env digests storage.getBackends).run s).1 := by
  have hl : (∃ loaded, ((storage.loadManifest digest).run s).1 = .ok (some loaded)) ↔
      ∃ manifest, firstManifest ((manifestAnswers digest storage.getBackends).run s).1 =
        .ok (some manifest) := by
    rw [← loadManifestFrom_eq]
    change (∃ loaded, ((storage.loadManifestFrom digest storage.getBackends).run s).1 = _) ↔ _
    cases ((storage.loadManifestFrom digest storage.getBackends).run s).1 with
    | error error => simp [Except.map]
    | ok f => cases f <;> simp [Except.map]
  have hb : ((storage.retrieveBlobs env digests).run s).1 =
      firstBlobs ((blobAnswers env digests storage.getBackends).run s).1 :=
    retrieveBlobsFrom_eq digests storage.getBackends s
  rw [hl, hb, firstManifest_found_iff, firstBlobs_complete_iff]

end

def unparseableBackend : StorageBackend (String → Memory) :=
  { memoryBackend "local" with
    retrieveManifest := fun _ s => (.error ⟨"expected value at line 1 column 1"⟩, s) }

def localAndRemote : Storage (String → Memory) where
  localBackends := [unparseableBackend]
  remoteBackends := [memoryBackend "remote"]
  workspaceRoot := slashRoot

def partlyLocal : String → Memory
  | "remote" =>
    { blobs := [(⟨"a1", 1⟩, .inline [1]), (⟨"b2", 1⟩, .inline [2])]
      manifests := [(⟨"d0", 2⟩, {})] }
  | _ => { blobs := [(⟨"a1", 1⟩, .inline [1])] }

theorem remote_manifest_and_blob_not_found :
    (∃ manifest, .ok (some manifest) ∈
        ((manifestAnswers ⟨"d0", 2⟩ localAndRemote.getBackends).run partlyLocal).1) ∧
      ((localAndRemote.loadManifest ⟨"d0", 2⟩).run partlyLocal).1.isOk = false ∧
      (∃ blobs ∈ ((blobAnswers memoryEnv [⟨"a1", 1⟩, ⟨"b2", 1⟩] localAndRemote.getBackends).run
        partlyLocal).1, (⟨"b2", 1⟩ : Digest) ∈ blobs.map Prod.fst) ∧
      ((localAndRemote.retrieveBlobs memoryEnv [⟨"a1", 1⟩, ⟨"b2", 1⟩]).run partlyLocal).1 =
        [(⟨"a1", 1⟩, .inline [1])] := by
  refine ⟨⟨{}, ?_⟩, rfl, ?_, by decide⟩
  · exact mem_cons_of_mem _ mem_cons_self
  · decide

end Moon.Proofs
