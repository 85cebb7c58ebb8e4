import Moon.Proofs.Hydration

/-! # Hydrated, and nothing left to ask for -/

namespace Moon.Proofs

open List Manifest

/-- A file that has neither bytes nor a path to be taken from. -/
def MissingFile (manifest : Manifest) (digest : Digest) : Prop :=
  ∃ file ∈ manifest.files, file.bytes = none ∧ file.sourcePath = none ∧ file.digest = some digest

/-- A digest whose content is missing, where a file with a source path misses nothing. -/
def Missing (manifest : Manifest) (digest : Digest) : Prop :=
  manifest.stderrBytes = none ∧ manifest.stderrDigest = some digest ∨
    manifest.stdoutBytes = none ∧ manifest.stdoutDigest = some digest ∨
    MissingFile manifest digest

/-- A file that is to be taken from a path and has no bytes. -/
def FromPath (manifest : Manifest) (digest : Digest) : Prop :=
  ∃ file ∈ manifest.files, file.bytes = none ∧ file.sourcePath.isSome = true ∧
    file.digest = some digest

variable {m filled : Manifest} {d : Digest} {rd : PathBuf → Except StorageError Bytes}

lemma resolved_iff {b : Option Bytes} {di : Option Digest} :
    resolved b di ↔ ∀ d, b = none → di = some d → d.size = 0 := by
  cases b <;> cases di <;> simp [resolved]

lemma isHydrated_iff_missing : m.isHydrated ↔ ∀ d, Missing m d → d.size = 0 := by
  rw [isHydrated_iff]
  simp only [resolved_iff, Missing, MissingFile]
  constructor
  · rintro ⟨he, ho, hf⟩ d (⟨hb, hd⟩ | ⟨hb, hd⟩ | ⟨f, hm, hb, hs, hd⟩)
    · exact he d hb hd
    · exact ho d hb hd
    · exact (hf f hm).resolve_left (by simp [hs]) d hb hd
  · intro h
    refine ⟨fun d hb hd => h d (.inl ⟨hb, hd⟩), fun d hb hd => h d (.inr (.inl ⟨hb, hd⟩)), ?_⟩
    intro f hm
    cases hs : f.sourcePath with
    | some path => exact .inl rfl
    | none => exact .inr (fun d hb hd => h d (.inr (.inr ⟨f, hm, hb, hs, hd⟩)))

lemma mem_collectUnhydrated_iff :
    d ∈ m.collectUnhydratedBlobDigests ↔ 0 < d.size ∧ (Missing m d ∨ FromPath m d) := by
  rw [mem_collectUnhydratedBlobDigests]
  refine and_congr_right (fun _ => ?_)
  have hs : ∀ f : ManifestFile, f.sourcePath = none ∨ f.sourcePath.isSome := by
    intro f
    cases f.sourcePath <;> simp
  unfold Missing MissingFile FromPath
  constructor
  · rintro (h | h | ⟨f, hm, hb, hd⟩)
    · exact .inl (.inl h)
    · exact .inl (.inr (.inl h))
    · rcases hs f with hp | hp
      · exact .inl (.inr (.inr ⟨f, hm, hb, hp, hd⟩))
      · exact .inr ⟨f, hm, hb, hp, hd⟩
  · rintro ((h | h | ⟨f, hm, hb, -, hd⟩) | ⟨f, hm, hb, -, hd⟩)
    · exact .inl h
    · exact .inr (.inl h)
    · exact .inr (.inr ⟨f, hm, hb, hd⟩)
    · exact .inr (.inr ⟨f, hm, hb, hd⟩)

lemma hydrateStdio_isSome {bs : Blobs} {b b' : Option Bytes} {di : Option Digest}
    (h : hydrateStdio rd bs b di = .ok b') (hb : b' = none) :
    ∀ d, di = some d → bs.get d = none := by
  subst hb
  rintro d rfl
  unfold hydrateStdio at h
  cases hg : bs.get d with
  | none => rfl
  | some co =>
    cases b with
    | some c => simp at h
    | none =>
      simp only [Option.bind_some, hg] at h
      cases hr : co.readBytes rd <;> rw [hr] at h <;> cases h

/-- A blob that was supplied is missing nowhere afterwards. -/
lemma get_eq_none_of_missing {bs : Blobs}
    (h : m.hydrate rd bs = .ok filled) (hm : Missing filled d) : bs.get d = none := by
  obtain ⟨err, he, h⟩ := Lib.bind_eq_ok h
  obtain ⟨out, ho, h⟩ := Lib.bind_eq_ok h
  cases h
  rcases hm with ⟨hb, hd⟩ | ⟨hb, hd⟩ | ⟨f, hf, hb, hs, hd⟩
  · exact hydrateStdio_isSome he hb d hd
  · exact hydrateStdio_isSome ho hb d hd
  · obtain ⟨f, -, rfl⟩ := mem_map.mp hf
    unfold ManifestFile.hydrate at hb hs hd
    split_ifs at hb hs hd with hc
    · simp [hb, hs] at hc
    · split at hb <;> split at hs <;> simp_all

/-- A file comes to be taken from a path if it was before, or if a file is handed out for it. -/
lemma fromPath_hydrate {bs : Blobs} (h : m.hydrate rd bs = .ok filled) :
    FromPath filled d ↔
      FromPath m d ∨ MissingFile m d ∧ ∃ path, bs.get d = some (.file path) := by
  obtain ⟨err, -, h⟩ := Lib.bind_eq_ok h
  obtain ⟨out, -, h⟩ := Lib.bind_eq_ok h
  cases h
  have hf (f : ManifestFile) : ((f.hydrate bs).bytes = none ∧
      (f.hydrate bs).sourcePath.isSome = true ∧ (f.hydrate bs).digest = some d) ↔
        f.bytes = none ∧ f.digest = some d ∧
          (f.sourcePath.isSome = true ∨ ∃ path, bs.get d = some (.file path)) := by
    unfold ManifestFile.hydrate
    cases hb : f.bytes with
    | some b => simp [hb]
    | none =>
      cases hs : f.sourcePath with
      | some path => simp [hb, hs]
      | none =>
        by_cases hd : f.digest = some d
        · rw [hd, Option.bind_some]
          rcases hg : bs.get d with _ | (path | bytes) <;> simp [hb, hs, hd]
        · rcases hg : f.digest.bind bs.get with _ | (path | bytes) <;> simp [hb, hs, hd]
  unfold FromPath MissingFile
  simp only [mem_map, exists_exists_and_eq_and, hf]
  constructor
  · rintro ⟨f, hm, hb, hd, hs | hp⟩
    · exact .inl ⟨f, hm, hb, hs, hd⟩
    · cases hs : f.sourcePath with
      | some path => exact .inl ⟨f, hm, hb, by simp [hs], hd⟩
      | none => exact .inr ⟨⟨f, hm, hb, hs, hd⟩, hp⟩
  · rintro (⟨f, hm, hb, hs, hd⟩ | ⟨⟨f, hm, hb, -, hd⟩, hp⟩)
    · exact ⟨f, hm, hb, hd, .inl hs⟩
    · exact ⟨f, hm, hb, hd, .inr hp⟩

/-- The two traversals agree if something of positive size is missing. Otherwise they agree if there
is either both or none of the two: something missing of a negative size, and a file of positive size
that is taken from a path. A blob that was supplied is asked for again exactly if it is that of a
file without bytes that has a path, or is given one. -/
theorem hydrated_iff_nothing_asked (manifest : Manifest)
    (readFileBytes : PathBuf → Except StorageError Bytes) (blobs : Blobs) :
    ((manifest.isHydrated = true ↔ manifest.collectUnhydratedBlobDigests = []) ↔
      (∃ digest, 0 < digest.size ∧ Missing manifest digest) ∨
        ((∃ digest, digest.size < 0 ∧ Missing manifest digest) ↔
          ∃ digest, 0 < digest.size ∧ FromPath manifest digest)) ∧
      ∀ filled, manifest.hydrate readFileBytes blobs = .ok filled →
        ((∀ digest ∈ filled.collectUnhydratedBlobDigests, blobs.get digest = none) ↔
          ∀ digest, 0 < digest.size → (FromPath manifest digest → blobs.get digest = none) ∧
            (MissingFile manifest digest → ∀ path, blobs.get digest ≠ some (.file path))) := by
  refine ⟨?_, fun filled h => ?_⟩
  · have hc : manifest.collectUnhydratedBlobDigests = [] ↔
        (¬ ∃ d, 0 < d.size ∧ Missing manifest d) ∧ ¬ ∃ d, 0 < d.size ∧ FromPath manifest d := by
      simp only [eq_nil_iff_forall_not_mem, mem_collectUnhydrated_iff, not_exists, and_or_left,
        not_or, forall_and]
    have hh : manifest.isHydrated = true ↔
        (¬ ∃ d, 0 < d.size ∧ Missing manifest d) ∧ ¬ ∃ d, d.size < 0 ∧ Missing manifest d := by
      rw [isHydrated_iff_missing]
      constructor
      · intro h
        refine ⟨?_, ?_⟩ <;> rintro ⟨d, hs, hm⟩ <;> have := h d hm <;> omega
      · rintro ⟨hp, hn⟩ d hm
        by_contra hz
        rcases lt_or_gt_of_ne hz with hs | hs
        · exact hn ⟨d, hs, hm⟩
        · exact hp ⟨d, hs, hm⟩
    rw [hc, hh, and_congr_right_iff, not_iff_not]
    exact or_iff_not_imp_left.symm
  · simp only [mem_collectUnhydrated_iff, fromPath_hydrate h]
    constructor
    · intro ha d hs
      refine ⟨fun hf => ha d ⟨hs, .inr (.inl hf)⟩, fun hm path hp => ?_⟩
      have := ha d ⟨hs, .inr (.inr ⟨hm, path, hp⟩)⟩
      rw [hp] at this
      cases this
    · rintro ha d ⟨hs, hm | hf | ⟨hm, path, hp⟩⟩
      · exact get_eq_none_of_missing h hm
      · exact (ha d hs).1 hf
      · exact absurd hp ((ha d hs).2 hm path)

/-- A file is handed out for the first blob. The next backend is asked for it again where another
blob is missing. -/
theorem referenced_blob_asked_again :
    let answer := fun hs =>
      (Manifest.hydrate (fun _ => .ok []) { files := hs.map distFile }
        [(⟨"d0", 1⟩, .file ⟨true, [.normal "d0"]⟩)]).map
          (fun filled => (filled.isHydrated, filled.collectUnhydratedBlobDigests))
    answer ["d0"] = .ok (true, [⟨"d0", 1⟩]) ∧
      answer ["d0", "d1"] = .ok (false, [⟨"d0", 1⟩, ⟨"d1", 1⟩]) := by
  decide

end Moon.Proofs
