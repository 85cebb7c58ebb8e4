import Moon.Lib.Except
import Moon.ManifestPacker

/-! # Packed manifests -/

namespace Moon.Proofs
open Lib List Manifest ManifestPacker

variable {b : Option Bytes} {d : Digest}

section

variable {m : Manifest}

lemma mem_blobDigest {re : Option Digest} : d ∈ blobDigest re ↔ re = some d ∧ 0 < d.size := by
  cases re with
  | none => simp [blobDigest]
  | some o =>
    unfold blobDigest
    by_cases hs : 0 < o.size
    · simp only [if_pos hs, mem_singleton, Option.some.injEq]
      constructor
      · intro heq
        subst heq
        exact ⟨rfl, hs⟩
      · intro h
        exact h.1.symm
    · simp only [if_neg hs, not_mem_nil, Option.some.injEq, false_iff, not_and]
      intro heq
      subst heq
      exact hs

lemma mem_collectBlobDigests :
    d ∈ m.collectBlobDigests ↔ 0 < d.size ∧ (m.stderrDigest = some d ∨ m.stdoutDigest = some d ∨
          ∃ f ∈ m.files, f.digest = some d) := by
  simp only [collectBlobDigests, mem_append, mem_flatMap, mem_blobDigest]
  constructor
  · intro h
    rcases h with (h | h) | ⟨f, hf, h⟩
    · exact ⟨h.2, .inl h.1⟩
    · exact ⟨h.2, .inr (.inl h.1)⟩
    · exact ⟨h.2, .inr (.inr ⟨f, hf, h.1⟩)⟩
  · intro ⟨hs, h⟩
    rcases h with h | h | ⟨f, hf, h⟩
    · exact .inl (.inl ⟨h, hs⟩)
    · exact .inl (.inr ⟨h, hs⟩)
    · exact .inr ⟨f, hf, h, hs⟩

lemma isHydrated_iff :
    m.isHydrated ↔ resolved m.stderrBytes m.stderrDigest ∧
        resolved m.stdoutBytes m.stdoutDigest ∧
        ∀ f ∈ m.files, f.sourcePath.isSome ∨ resolved f.bytes f.digest := by
  simp only [isHydrated, Bool.and_eq_true, all_eq_true, Bool.or_eq_true, and_assoc]

lemma bytes_isSome_of_resolved (h : resolved b (some d)) (hsz : 0 < d.size) : ∃ c, b = some c := by
  unfold resolved at h
  rw [Bool.or_eq_true] at h
  cases h with
  | inl hs => exact Option.isSome_iff_exists.mp hs
  | inr hem =>
    have hzr : d.size = 0 := by simpa using hem
    omega

/-- The output streams that a manifest refers to are in it, as in manifests that were packed or
hydrated. -/
def CarriesStreams (manifest : Manifest) : Prop :=
  resolved manifest.stderrBytes manifest.stderrDigest = true ∧
    resolved manifest.stdoutBytes manifest.stdoutDigest = true

lemma carriesStreams_of_hydrated (hh : m.isHydrated) : CarriesStreams m :=
  ⟨(isHydrated_iff.mp hh).1, (isHydrated_iff.mp hh).2.1⟩

lemma mem_collectBlobInputs (r : WorkspaceRoot) (hst : CarriesStreams m)
    (h : d ∈ m.collectBlobDigests) : d ∈ (m.collectBlobInputs r).map BlobInput.digest := by
  obtain ⟨her, ho⟩ := hst
  obtain ⟨hs, hr⟩ := mem_collectBlobDigests.mp h
  unfold collectBlobInputs
  simp only [map_append, mem_append, mem_map]
  rcases hr with hr | hr | ⟨f, hf, hr⟩
  · rw [hr] at her
    obtain ⟨c, hc⟩ := bytes_isSome_of_resolved her hs
    refine .inl (.inr ⟨⟨.inline c, d⟩, ?_, rfl⟩)
    simp [hr, hc, stdioInput]
  · rw [hr] at ho
    obtain ⟨c, hc⟩ := bytes_isSome_of_resolved ho hs
    refine .inr ⟨⟨.inline c, d⟩, ?_, rfl⟩
    simp [hr, hc, stdioInput]
  · refine .inl (.inl (.inr ⟨⟨f.blobContent r d, d⟩, ?_, rfl⟩))
    exact mem_filterMap.mpr ⟨f, hf, by simp [ManifestFile.blobInput, hr]⟩

end

structure PackedFile (sha256 : Bytes → String) (fs : PackFs) (root : WorkspaceRoot)
    (file : ManifestFile) (absPath : PathBuf) : Prop where
  bytes : file.bytes = none
  sourcePath : file.sourcePath = some absPath
  path : file.path = absPath.relativeTo root.path
  digest : ∃ content, fs.content absPath = some content ∧
    file.digest = some (Digest.fromBytes sha256 content)

def PackedOutput (sha256 : Bytes → String) (bytes : Option Bytes) (digest : Option Digest) : Prop :=
  (bytes = none ∧ digest = none) ∨
    ∃ output, output ≠ [] ∧ bytes = some output ∧ digest = some (Digest.fromBytes sha256 output)

structure PackedManifest (sha256 : Bytes → String) (fs : PackFs) (root : WorkspaceRoot)
    (manifest : Manifest) : Prop where
  files : ∀ file ∈ manifest.files, ∃ absPath, PackedFile sha256 fs root file absPath
  stderr : PackedOutput sha256 manifest.stderrBytes manifest.stderrDigest
  stdout : PackedOutput sha256 manifest.stdoutBytes manifest.stdoutDigest
  times : manifest.uploadStartedAt = none ∧ manifest.uploadCompletedAt = none
  source : ∀ source, manifest.digestSource = some source → source.bytes = none ∧
    ∃ absPath, source.sourcePath = some absPath ∧ fs.pathExists absPath = true

section

variable {s : Bytes → String} {fs : PackFs} {r : WorkspaceRoot}

lemma packedManifest_new : PackedManifest s fs r {} where
  files := by simp
  stderr := .inl ⟨rfl, rfl⟩
  stdout := .inl ⟨rfl, rfl⟩
  times := ⟨rfl, rfl⟩
  source := by simp

def Packs (sha256 : Bytes → String) (fs : PackFs) (root : WorkspaceRoot)
    (packer : ManifestPacker) : Prop :=
  packer.workspaceRoot = root ∧ PackedManifest sha256 fs root packer.manifest

variable {p p' : ManifestPacker} {a : PathBuf}

lemma insertFile_ok (h : p.insertFile s fs a = .ok p') :
    ∃ f, PackedFile s fs p.workspaceRoot f a ∧ p' = { p with
      manifest := { p.manifest with files := p.manifest.files ++ [f] } } := by
  unfold insertFile at h
  split at h
  · rename_i metadata content hmtd hc
    cases h
    exact ⟨_, ⟨rfl, rfl, rfl, content, hc, rfl⟩, rfl⟩
  · cases h

lemma inheritOutput_ok {P : ManifestPacker → Prop} (hpc : P p) (h : p.inheritOutput s fs a = .ok p')
    (hs : ∀ ss, P { p with
      manifest := { p.manifest with symlinks := ss } })
    (hf : a.startsWith p.workspaceRoot.path → ∀ f, f = a ∨ f ∈ fs.walkFiles a → ∀ c next, P c →
        c.insertFile s fs f = .ok next → P next) : P p' := by
  unfold inheritOutput at h
  split at h
  · cases h
  · rename_i hi
    have hf := hf (by simpa using hi)
    split at h
    · unfold insertSymlink at h
      split at h
      · cases h
      · split at h <;> cases h
        exact hs _
    · split at h
      · exact hf a (.inl rfl) p p' hpc h
      · split at h
        · unfold insertDir at h
          exact foldlM_invariant_mem (fun f hm c next hp hst =>
            hf f (.inr hm) c next hp hst) hpc h
        · cases h
          exact hpc

lemma packs_insertFile (hp : Packs s fs r p)
    (h : p.insertFile s fs a = .ok p') : Packs s fs r p' := by
  obtain ⟨f, hpc, rfl⟩ := insertFile_ok h
  rw [hp.1] at hpc
  refine ⟨hp.1, { hp.2 with files := fun o ho => ?_ }⟩
  cases mem_append.mp ho with
  | inl hol => exact hp.2.files o hol
  | inr hn =>
    rw [mem_singleton] at hn
    subst hn
    exact ⟨a, hpc⟩

lemma packedOutput_captured (c : Option CapturedOutput) {d : Option Digest}
    (h : PackedOutput s b d) :
    PackedOutput s ((c.map Subtype.val).or b) ((c.map (fun o => Digest.fromBytes s o)).or d) := by
  cases c with
  | none => exact h
  | some o => exact .inr ⟨o.val, o.property, rfl, rfl⟩

lemma createCacheManifest_packed {os : List PathBuf} {e : Option ExecOutput} {so : PathBuf}
    {m : Manifest} (h : createCacheManifest s fs r os e d so = .ok m) :
    PackedManifest s fs r m := by
  unfold createCacheManifest at h
  obtain ⟨p, hf, hpc⟩ := bind_eq_ok h
  have hn : Packs s fs r (new r) := ⟨rfl, packedManifest_new⟩
  have ho : Packs s fs r p :=
    foldlM_invariant (fun _ _ _ hp hst =>
      inheritOutput_ok hp hst (fun _ => ⟨hp.1, { hp.2 with }⟩)
        (fun _ _ _ _ _ hc hi => packs_insertFile hc hi)) hn hf
  cases hpc
  have hex : PackedManifest s fs r (p.inheritOperation s e).manifest := by
    cases e with
    | none => exact ho.2
    | some e =>
      exact { ho.2 with
        stderr := packedOutput_captured e.stderr ho.2.stderr
        stdout := packedOutput_captured e.stdout ho.2.stdout }
  unfold inheritSource
  split
  · rename_i hexs
    refine { hex with source := fun so hs => ?_ }
    cases hs
    exact ⟨rfl, _, rfl, hexs⟩
  · exact hex

lemma PackedOutput.resolved {d : Option Digest} (h : PackedOutput s b d) :
    Manifest.resolved b d := by
  cases h with
  | inl hn => simp [Manifest.resolved, hn.1, hn.2]
  | inr hs =>
    obtain ⟨o, _, hb, _⟩ := hs
    simp [Manifest.resolved, hb]

lemma PackedManifest.isHydrated {m : Manifest} (h : PackedManifest s fs r m) : m.isHydrated := by
  refine isHydrated_iff.mpr ⟨h.stderr.resolved, h.stdout.resolved, fun f hf => ?_⟩
  obtain ⟨a, hp⟩ := h.files f hf
  simp [hp.sourcePath]

end

end Moon.Proofs
