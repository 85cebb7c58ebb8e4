import Moon.ActionResult
import Moon.Lib.Except

/-!
# What survives the wire

A manifest that is sent as an action result arrives without the paths its files were packed
from, the fingerprint file, contents that are empty, and times before the epoch.
-/

namespace Moon.Proofs
open Lib Option Manifest ExternalDigest ManifestFile ManifestSymlink

def deliveredTime (time : Option SystemTime) : Option SystemTime :=
  time.filter (fun time => 0 ≤ time)

def deliveredBytes (bytes : Option Bytes) : Option Bytes := bytes.filter (fun bytes => bytes ≠ [])

def deliveredFile (file : ManifestFile) : ManifestFile :=
  { file with
    bytes := if file.digest.isSome then deliveredBytes file.bytes else none
    modifiedAt := deliveredTime file.modifiedAt
    sourcePath := none }

def deliveredSymlink (symlink : ManifestSymlink) : ManifestSymlink :=
  { symlink with modifiedAt := deliveredTime symlink.modifiedAt }

/-- What the wire keeps of a manifest. -/
def delivered (manifest : Manifest) : Manifest :=
  { manifest with
    files := manifest.files.map deliveredFile
    symlinks := manifest.symlinks.map deliveredSymlink
    stderrBytes := deliveredBytes manifest.stderrBytes
    stdoutBytes := deliveredBytes manifest.stdoutBytes
    uploadStartedAt := deliveredTime manifest.uploadStartedAt
    uploadCompletedAt := deliveredTime manifest.uploadCompletedAt
    digestSource := none }

/-- Every digest is the hash of a content. -/
structure ContentHashes (manifest : Manifest) : Prop where
  files : ∀ file ∈ manifest.files, ∀ digest, file.digest = some digest →
    isContentHash digest.hash = true
  stderr : ∀ digest, manifest.stderrDigest = some digest → isContentHash digest.hash = true
  stdout : ∀ digest, manifest.stdoutDigest = some digest → isContentHash digest.hash = true

section

lemma createFromTimestamp_split {t : SystemTime} (h : 0 ≤ t) :
    createFromTimestamp ⟨t / NANOS_PER_SEC, t % NANOS_PER_SEC⟩ = t := by
  have hs : ¬ t / NANOS_PER_SEC < 0 := Int.not_lt.mpr (Int.ediv_nonneg h (by decide))
  have hn : ¬ t % NANOS_PER_SEC < 0 := Int.not_lt.mpr (Int.emod_nonneg _ (by decide))
  simp only [createFromTimestamp, asUnsigned, if_neg hs, if_neg hn]
  exact Int.ediv_mul_add_emod t NANOS_PER_SEC

lemma timestamp_delivered (t : Option SystemTime) :
    (t.bind createTimestamp).map createFromTimestamp = deliveredTime t := by
  cases t with
  | none => rfl
  | some t =>
    by_cases h : 0 ≤ t
    · simp [createTimestamp, deliveredTime, Option.filter, h, createFromTimestamp_split h]
    · simp [createTimestamp, deliveredTime, Option.filter, h]

lemma deliveredTime_timestamp (t : Option SystemTime) :
    (deliveredTime t).bind createTimestamp = t.bind createTimestamp := by
  cases t with
  | none => rfl
  | some t => by_cases h : 0 ≤ t <;> simp [deliveredTime, createTimestamp, Option.filter, h]

lemma inlined_delivered (b : Option Bytes) : inlined (b.getD []) = deliveredBytes b := by
  cases b with
  | none => rfl
  | some b => by_cases h : b = [] <;> simp [inlined, deliveredBytes, Option.filter, h]

lemma toInternalDigest_toExternalDigest {d : Digest} (h : isContentHash d.hash) :
    d.toExternalDigest.toInternalDigest = .ok d := by
  simp [toInternalDigest, Digest.toExternalDigest, h]

lemma toInternalDigest_external {r : Option Digest} (h : ∀ d, r = some d → isContentHash d.hash) :
    toInternalDigest? (r.map Digest.toExternalDigest) = .ok r := by
  cases r with
  | none => rfl
  | some d =>
    rw [map_some, toInternalDigest?, toInternalDigest_toExternalDigest (h d rfl)]
    rfl

lemma fromBazelActionResult_intoBazelActionResult {m : Manifest} (h : ContentHashes m) :
    fromBazelActionResult (m.intoBazelActionResult true) = .ok (delivered m) := by
  have hf : (m.files.map intoBazelFile).mapM fromBazelFile = .ok (m.files.map deliveredFile) := by
    rw [List.mapM_map]
    refine mapM_eq_ok_map (fun f hfl => ?_)
    have hd := toInternalDigest_external (h.files f hfl)
    simp only [Function.comp, fromBazelFile, intoBazelFile, hd]
    change Except.ok _ = Except.ok _
    simp only [deliveredFile, inlined_delivered, timestamp_delivered, getD_some, isSome_map]
  have her := toInternalDigest_external h.stderr
  have ho := toInternalDigest_external h.stdout
  have hs : (m.symlinks.map intoBazelSymlink).map
      fromBazelSymlink = m.symlinks.map deliveredSymlink := by
    rw [List.map_map]
    refine List.map_congr_left (fun symlink _ => ?_)
    simp only [Function.comp, fromBazelSymlink, intoBazelSymlink,
      deliveredSymlink, timestamp_delivered, getD_some]
  simp only [fromBazelActionResult, intoBazelActionResult, hf, her, ho, hs]
  change Except.ok _ = Except.ok _
  simp only [delivered, inlined_delivered, timestamp_delivered, getD_some, if_true]

variable {m : Manifest}

lemma contentHash_of_external {r re : Option Digest}
    (h : toInternalDigest? (r.map Digest.toExternalDigest) = .ok re) :
    ∀ d, r = some d → isContentHash d.hash := by
  rintro d rfl
  by_contra hn
  simp [toInternalDigest?, toInternalDigest, Digest.toExternalDigest, hn] at h
  cases h

lemma contentHashes_of_decoded {r : Manifest}
    (h : fromBazelActionResult (m.intoBazelActionResult true) = .ok r) : ContentHashes m := by
  obtain ⟨files, hf, h⟩ := bind_eq_ok h
  obtain ⟨err, he, h⟩ := bind_eq_ok h
  obtain ⟨out, ho, -⟩ := bind_eq_ok h
  refine ⟨fun file hm => ?_, contentHash_of_external he, contentHash_of_external ho⟩
  obtain ⟨file', hd, -⟩ := mapM_eq_ok_mem hf (List.mem_map_of_mem hm)
  obtain ⟨digest, hd, -⟩ := bind_eq_ok hd
  exact contentHash_of_external hd

/-- Where the contents are taken from does not travel. -/
def withoutSources (manifest : Manifest) : Manifest :=
  { manifest with
    files := manifest.files.map (fun file => { file with sourcePath := none })
    digestSource := none }

/-- What the wire form has no value for: an empty content, a content without a digest, a time
before the epoch, or a hash that is none. -/
structure Portable (manifest : Manifest) : Prop where
  hashes : ContentHashes manifest
  times : manifest.isSerializable = true
  files : ∀ file ∈ manifest.files, file.bytes ≠ some [] ∧ (file.bytes ≠ none → file.digest ≠ none)
  stderr : manifest.stderrBytes ≠ some []
  stdout : manifest.stdoutBytes ≠ some []

lemma deliveredTime_eq_self {ti : Option SystemTime} : deliveredTime ti = ti ↔ ∀ t ∈ ti, 0 ≤ t := by
  cases ti <;> simp [deliveredTime, Option.filter]

lemma deliveredBytes_eq_self {b : Option Bytes} : deliveredBytes b = b ↔ b ≠ some [] := by
  cases b <;> simp [deliveredBytes]

lemma deliveredFile_kept (file : ManifestFile) :
    { deliveredFile file with sourcePath := none } = { file with sourcePath := none } ↔
      (file.bytes ≠ some [] ∧ (file.bytes ≠ none → file.digest ≠ none)) ∧
        ∀ t ∈ file.modifiedAt, 0 ≤ t := by
  simp only [deliveredFile, ManifestFile.mk.injEq, true_and, and_true, deliveredTime_eq_self]
  refine and_congr_left (fun _ => ?_)
  cases file.digest with
  | some digest => simp [deliveredBytes_eq_self]
  | none => cases file.bytes <;> simp

lemma delivered_kept :
    withoutSources (delivered m) = withoutSources m ↔ m.isSerializable ∧
      (∀ file ∈ m.files, file.bytes ≠ some [] ∧ (file.bytes ≠ none → file.digest ≠ none)) ∧
        m.stderrBytes ≠ some [] ∧ m.stdoutBytes ≠ some [] := by
  have hl : m.symlinks.map deliveredSymlink = m.symlinks ↔
      ∀ l ∈ m.symlinks, ∀ t ∈ l.modifiedAt, 0 ≤ t := by
    conv_lhs => rhs; rw [← List.map_id m.symlinks]
    rw [List.map_inj_left]
    refine forall₂_congr (fun l _ => ?_)
    rw [← deliveredTime_eq_self]
    exact ⟨fun h => congrArg ManifestSymlink.modifiedAt h, fun h => by simp [deliveredSymlink, h]⟩
  have hf : (m.files.map deliveredFile).map (fun file => { file with sourcePath := none }) =
      m.files.map (fun file => { file with sourcePath := none }) ↔
        ∀ file ∈ m.files, (file.bytes ≠ some [] ∧ (file.bytes ≠ none → file.digest ≠ none)) ∧
          ∀ t ∈ file.modifiedAt, 0 ≤ t := by
    rw [List.map_map, List.map_inj_left]
    exact forall₂_congr (fun file _ => deliveredFile_kept file)
  simp only [withoutSources, delivered, Manifest.mk.injEq, hf, hl, deliveredBytes_eq_self,
    deliveredTime_eq_self]
  simp only [isSerializable, times, List.all_eq_true, List.mem_append,
    List.mem_filterMap, Option.mem_toList, decide_eq_true_eq]
  constructor
  · rintro ⟨hfl, hsl, -, he, -, ho, -, hs, hc, -⟩
    refine ⟨?_, fun file hm => (hfl file hm).1, he, ho⟩
    rintro t (((⟨file, hm, ht⟩ | ⟨l, hm, ht⟩) | ht) | ht)
    · exact (hfl file hm).2 t ht
    · exact hsl l hm t ht
    · exact hs t ht
    · exact hc t ht
  · rintro ⟨ht, hfl, he, ho⟩
    exact ⟨fun file hm => ⟨hfl file hm, fun t h => ht t (.inl (.inl (.inl ⟨file, hm, h⟩)))⟩,
      fun l hm t h => ht t (.inl (.inl (.inr ⟨l, hm, h⟩))), trivial, he, trivial, ho, trivial,
      fun t h => ht t (.inl (.inr h)), fun t h => ht t (.inr h), trivial⟩

/-- A manifest with valid hashes, and no other, is received, as `delivered` says. Apart from its
sources it is the one that was sent exactly if the wire form has a value for everything in it. -/
theorem wire_round_trip (manifest : Manifest) :
    ((∃ received, Manifest.fromBazelActionResult (manifest.intoBazelActionResult true) =
        .ok received) ↔ ContentHashes manifest) ∧
      ∀ received, Manifest.fromBazelActionResult (manifest.intoBazelActionResult true) =
          .ok received →
        received = delivered manifest ∧
          (withoutSources received = withoutSources manifest ↔ Portable manifest) := by
  refine ⟨⟨fun ⟨_, hr⟩ => contentHashes_of_decoded hr,
    fun h => ⟨_, fromBazelActionResult_intoBazelActionResult h⟩⟩, fun received hr => ?_⟩
  have hh := contentHashes_of_decoded hr
  cases (fromBazelActionResult_intoBazelActionResult hh).symm.trans hr
  refine ⟨rfl, delivered_kept.trans ⟨?_, fun h => ⟨h.times, h.files, h.stderr, h.stdout⟩⟩⟩
  rintro ⟨ht, hf, he, ho⟩
  exact ⟨hh, ht, hf, he, ho⟩

/-- The empty output of a process that wrote nothing. -/
theorem wire_drops_empty_output :
    ∃ sent received : Manifest, sent.stdoutBytes = some [] ∧
      Manifest.fromBazelActionResult (sent.intoBazelActionResult true) = .ok received ∧
      withoutSources received ≠ withoutSources sent :=
  ⟨{ stdoutBytes := some [] }, {}, rfl, by decide, by decide⟩

end

end Moon.Proofs
