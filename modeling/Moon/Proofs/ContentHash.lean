import Mathlib.Data.String.Basic
import Moon.ContentHash
import Moon.Proofs.LocalStorage
import Moon.Proofs.TargetText

/-!
# Validated hashes and cached contents

A validated hash has a place of its own in a store, but two of the ways to get a hash do not
validate it. A hasher gives its text away only while that is cached.
-/

namespace Moon.Proofs

open List ContentHash

section

variable {c : Char} {cs : List Char} {hash : String}

lemma utf8Size_of_hexdigit (h : isAsciiHexdigit c) : c.utf8Size = 1 := by
  have hl : c.val ≤ 127 := by
    simp only [isAsciiHexdigit, Bool.or_eq_true, Bool.and_eq_true, decide_eq_true_eq] at h
    rcases h with (⟨-, h⟩ | ⟨-, h⟩) | ⟨-, h⟩
    · exact UInt32.le_trans h (by decide : '9'.val ≤ 127)
    · exact UInt32.le_trans h (by decide : 'f'.val ≤ 127)
    · exact UInt32.le_trans h (by decide : 'F'.val ≤ 127)
  exact if_pos hl

lemma utf8Len_eq_length (h : ∀ c ∈ cs, isAsciiHexdigit c) : utf8Len cs = cs.length := by
  rw [utf8Len, map_congr_left (fun c hc => utf8Size_of_hexdigit (h c hc))]
  simp

lemma utf8ByteSize_ofList_eq (cs : List Char) : (String.ofList cs).utf8ByteSize = utf8Len cs := by
  induction cs with
  | nil => rfl
  | cons c cs ih =>
    rw [String.ofList_cons, String.utf8ByteSize_append, String.utf8ByteSize_singleton, ih]
    rfl

lemma isContentHash_iff : isContentHash hash ↔
    hash.toList.length = 64 ∧ ∀ c ∈ hash.toList, isAsciiHexdigit c := by
  rw [isContentHash, Bool.and_eq_true, beq_iff_eq, all_eq_true]
  refine and_congr_left (fun h => ?_)
  rw [← utf8Len_eq_length h, ← utf8ByteSize_ofList_eq, String.ofList_toList]

/-- Hexadecimal digits are one component, which is neither `.` nor `..`. -/
lemma joinText_hex (p : PathBuf) (hn : cs ≠ []) (h : ∀ c ∈ cs, isAsciiHexdigit c) :
    p.joinText cs = p.push (.normal (String.ofList cs)) := by
  have hno : ∀ c, isAsciiHexdigit c = false → c ∉ cs := fun c hc hm => by
    cases hc.symm.trans (h c hm)
  have hslash := hno '/' (by decide)
  have hdot : ∀ text : String, '.' ∈ text.toList → String.ofList cs ≠ text := by
    rintro text hm rfl
    exact hno '.' (by decide) (by rwa [String.toList_ofList] at hm)
  have hseg : Component.ofSegment (String.ofList cs) = some (.normal (String.ofList cs)) := by
    rw [Component.ofSegment, if_neg (fun he => hn (by simpa using congrArg String.toList he)),
      if_neg (hdot "." (by decide)), if_neg (hdot ".." (by decide))]
  have hhead : ¬ cs.head? = some '/' := fun he => hslash (mem_of_mem_head? he)
  rw [PathBuf.joinText, if_neg hhead, splitOn_eq_singleton hslash, PathBuf.push]
  simp [hseg]

lemma slicedPath_of_isContentHash (s : CasStore) (h : isContentHash hash) :
    s.slicedPath hash = some (s.objectPath hash) := by
  obtain ⟨hl, hx⟩ := isContentHash_iff.mp h
  have ht : ∀ c ∈ hash.toList.take 2, isAsciiHexdigit c := fun c hc =>
    hx c (mem_of_mem_take hc)
  have hd : ∀ c ∈ hash.toList.drop 2, isAsciiHexdigit c := fun c hc =>
    hx c (mem_of_mem_drop hc)
  have hs := splitAtByte_append (hash.toList.take 2) (hash.toList.drop 2)
  rw [take_append_drop, utf8Len_eq_length ht, length_take, hl] at hs
  rw [CasStore.slicedPath, show (2 : Nat) = min 2 64 from rfl, hs, Option.map_some,
    joinText_hex _ (ne_nil_of_length_pos (by simp [hl])) ht,
    joinText_hex _ (ne_nil_of_length_pos (by simp [hl])) hd]
  rfl

/-- All hashes of a way to get one are valid exactly if it is not the default, and deserializes
nothing else. Valid hashes are sliced into two components below the directory of the store, from
which they can be told apart. -/
theorem content_hashes_valid_iff (sha256 : Bytes → String) (store : CasStore) :
    (∀ source, (∀ hash, ContentHash.ofSource sha256 source = .ok hash →
        isContentHash hash = true) ↔ source ≠ .default ∧
          ∀ text, source = .deserialize text → isContentHash text = true) ∧
      (∀ hash, isContentHash hash = true → ∃ shard name, store.slicedPath hash =
        some ((store.objectsDir.push (.normal shard)).push (.normal name))) ∧
      ∀ hash hash', isContentHash hash = true → isContentHash hash' = true →
        store.slicedPath hash = store.slicedPath hash' → hash = hash' := by
  refine ⟨fun source => ?_, fun hash h => ?_, fun hash hash' h h' he => ?_⟩
  · have hx : ∀ hex hash, fromHex hex = .ok hash → isContentHash hash := by
      intro hex hash h
      unfold fromHex at h
      split_ifs at h with hv
      cases h
      exact hv
    cases source with
    | hashBytes b => exact ⟨fun _ => ⟨nofun, nofun⟩, fun _ => hx _⟩
    | hashFile b => exact ⟨fun _ => ⟨nofun, nofun⟩, fun _ => hx _⟩
    | fromHex hex => exact ⟨fun _ => ⟨nofun, nofun⟩, fun _ => hx _⟩
    | deserialize text =>
      refine ⟨fun h => ⟨nofun, fun _ he => ?_⟩, fun h hash he => ?_⟩
      · cases he
        exact h text rfl
      · cases he
        exact h.2 text rfl
    | default => exact ⟨fun h => absurd (h "" rfl) (by decide), fun h => absurd rfl h.1⟩
  · exact ⟨_, _, slicedPath_of_isContentHash store h⟩
  · rw [slicedPath_of_isContentHash store h, slicedPath_of_isContentHash store h',
      Option.some.injEq] at he
    have hp := congrArg store.hashOfPath he
    rw [hashOfPath_objectPath, hashOfPath_objectPath] at hp
    exact Option.some.inj hp

/-- A manifest on disk may have an empty hash, which panics, one that leads out of the store, and
two with one path. -/
theorem deserialized_hash_escapes :
    ContentHash.ofSource (fun _ => "") (.deserialize "../etc/passwd") = .ok "../etc/passwd" ∧
      CasStore.slicedPath ⟨⟨true, [.normal "cas"]⟩, true⟩ "../etc/passwd" =
        some ⟨true, [.normal "etc", .normal "passwd"]⟩ ∧
      CasStore.slicedPath ⟨⟨true, [.normal "cas"]⟩, true⟩ "" = none ∧
      CasStore.slicedPath ⟨⟨true, [.normal "cas"]⟩, true⟩ "aab" =
        CasStore.slicedPath ⟨⟨true, [.normal "cas"]⟩, true⟩ "aab/" :=
  ⟨rfl, by decide, by decide, by decide⟩

end

section

open ContentHasher

def addedBy : Call → Option String
  | .hashContent content => content
  | _ => none

/-- Whether a call leaves the text of the contents in the cache. -/
def caches : Call → Bool
  | .hashContent _ => false
  | _ => true

/-- Whether there was a call that caches the text since the last content was added. -/
def Cached (calls : List Call) : Prop :=
  ∃ call ∈ calls.reverse.takeWhile (fun call => (addedBy call).isNone), caches call = true

variable {f : Bytes → String} {calls : List Call} {hasher : ContentHasher} {contents : List String}

structure Holds (sha256 : Bytes → String) (contents : List String) (hasher : ContentHasher) :
    Prop where
  contents_eq : hasher.contents = contents
  content : ∀ data, hasher.contentCache = some data → data = jsonList contents
  hash : ∀ hash, hasher.hashCache = some hash →
    ContentHash.fromHex (sha256 (bytesOf (jsonList contents))) = .ok hash ∧
      hasher.contentCache ≠ none

lemma serialize_eq (h : Holds f contents hasher) :
    hasher.serialize =
      (jsonList contents, { hasher with contentCache := some (jsonList contents) }) := by
  unfold serialize
  cases hc : hasher.contentCache with
  | none => rw [h.contents_eq]
  | some d =>
    obtain rfl := h.content d hc
    exact congrArg (Prod.mk _) (by rw [← hc])

lemma generateHash_eq (h : Holds f contents hasher) :
    (hasher.generateHash f).1 = fromHex (f (bytesOf (jsonList contents))) ∧
      (hasher.generateHash f).2.contentCache = some (jsonList contents) ∧
      Holds f contents (hasher.generateHash f).2 := by
  unfold generateHash
  cases hh : hasher.hashCache with
  | some hash =>
    obtain ⟨he, hc⟩ := h.hash hash hh
    obtain ⟨d, hd⟩ := Option.ne_none_iff_exists'.mp hc
    exact ⟨he.symm, by rw [hd, h.content d hd], h⟩
  | none =>
    rw [serialize_eq h]
    refine ⟨rfl, rfl, h.contents_eq, fun d hd => (Option.some.inj hd).symm, fun hash hd => ?_⟩
    exact ⟨Lib.toOption_eq_some hd, nofun⟩

lemma run_concat (calls : List Call) (c : Call) :
    run f (calls ++ [c]) = call f (run f calls) c := by
  simp [run]

lemma run_holds (f : Bytes → String) (calls : List Call) :
    Holds f (calls.filterMap addedBy) (run f calls) ∧
      ((run f calls).contentCache ≠ none ↔ Cached calls) := by
  induction calls using reverseRecOn with
  | nil => exact ⟨⟨rfl, nofun, nofun⟩, by simp [run, Cached]⟩
  | append_singleton calls c ih =>
    obtain ⟨hh, hc⟩ := ih
    rw [run_concat, filterMap_append, Cached, reverse_append, reverse_singleton, singleton_append]
    cases c with
    | serialize =>
      rw [call, serialize_eq hh, show [Call.serialize].filterMap addedBy = [] from rfl, append_nil,
        takeWhile_cons_of_pos rfl]
      refine ⟨⟨hh.contents_eq, fun d hd => (Option.some.inj hd).symm, fun hash hd => ?_⟩, ?_⟩
      · exact ⟨(hh.hash hash hd).1, nofun⟩
      · exact ⟨fun _ => ⟨_, mem_cons_self, rfl⟩, fun _ => nofun⟩
    | generateHash =>
      obtain ⟨-, hg, hr⟩ := generateHash_eq hh
      rw [call, show [Call.generateHash].filterMap addedBy = [] from rfl, append_nil,
        takeWhile_cons_of_pos rfl]
      exact ⟨hr, fun _ => ⟨_, mem_cons_self, rfl⟩, fun _ => by simp [hg]⟩
    | hashContent co =>
      cases co with
      | none =>
        rw [show [Call.hashContent none].filterMap addedBy = [] from rfl, append_nil,
          takeWhile_cons_of_pos rfl]
        refine ⟨hh, hc.trans ⟨fun ⟨c, hm, he⟩ => ⟨c, mem_cons_of_mem _ hm, he⟩, ?_⟩⟩
        rintro ⟨c, hm, he⟩
        rcases mem_cons.mp hm with rfl | hm
        · cases he
        · exact ⟨c, hm, he⟩
      | some text =>
        rw [takeWhile_cons_of_neg (by simp [addedBy])]
        refine ⟨⟨congrArg (· ++ [text]) hh.contents_eq, nofun, nofun⟩, ?_⟩
        exact ⟨fun h => absurd rfl h, fun ⟨_, hm, _⟩ => absurd hm not_mem_nil⟩

lemma bytesOf_jsonList_ne_nil (contents : List String) : bytesOf (jsonList contents) ≠ [] := by
  intro h
  have hl : (bytesOf (jsonList contents)).length = (jsonList contents).utf8ByteSize := rfl
  rw [h, jsonList, String.utf8ByteSize_append, String.utf8ByteSize_append,
    show "[".utf8ByteSize = 1 from rfl] at hl
  rw [length_nil] at hl
  omega

/-- The bytes are the list of the contents exactly while its text is cached. A generated hash is
that of the bytes, up to the next content. -/
theorem hasher_bytes_iff (sha256 : Bytes → String) (calls : List Call) :
    ((run sha256 calls).intoBytes = bytesOf (jsonList (calls.filterMap addedBy)) ↔ Cached calls) ∧
      ∀ before after, calls = before ++ .generateHash :: after →
        (∀ call ∈ after, addedBy call = none) →
        ((run sha256 before).generateHash sha256).1 =
          ContentHash.fromHex (sha256 (run sha256 calls).intoBytes) := by
  obtain ⟨hh, hc⟩ := run_holds sha256 calls
  have hb : Cached calls →
      (run sha256 calls).intoBytes = bytesOf (jsonList (calls.filterMap addedBy)) := by
    intro h
    obtain ⟨d, hd⟩ := Option.ne_none_iff_exists'.mp (hc.mpr h)
    rw [intoBytes, hd, hh.content d hd]
    rfl
  refine ⟨⟨fun h => ?_, hb⟩, fun before after he ha => ?_⟩
  · -- without a cached text there are no bytes, and the list has at least its brackets
    refine hc.mp (fun hn => ?_)
    rw [intoBytes, hn] at h
    exact bytesOf_jsonList_ne_nil _ h.symm
  · have hca : Cached calls := by
      refine ⟨.generateHash, ?_, rfl⟩
      rw [he, reverse_append, reverse_cons, append_assoc, takeWhile_append_of_pos]
      · exact mem_append_right _ (by simp [addedBy])
      · exact fun c hm => by simp [ha c (mem_reverse.mp hm)]
    have hadd : calls.filterMap addedBy = before.filterMap addedBy := by
      rw [he, filterMap_append, filterMap_cons_none rfl, filterMap_eq_nil_iff.mpr ha, append_nil]
    rw [hb hca, hadd]
    exact (generateHash_eq (run_holds sha256 before).1).1

/-- A content that was added but never serialized is not in the bytes. -/
theorem unserialized_content_lost :
    (run (fun _ => "") [.hashContent (some "1")]).intoBytes = [] ∧
      bytesOf (jsonList ["1"]) ≠ [] := by
  decide

end

end Moon.Proofs
