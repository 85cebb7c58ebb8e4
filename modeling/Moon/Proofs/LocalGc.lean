import Mathlib.Algebra.BigOperators.Ring.Finset
import Moon.LocalGc

/-!
# What a collection keeps

`evict_manifests` counts a blob as often as a manifest lists it. This is compared with counting
it once.
-/

namespace Moon.Proofs

open List Eviction ManifestEntry

section

variable {now : SystemTime} {lifetime : Nat} {maxSize : Option Nat} {size : String → Nat}
  {eviction : Eviction}

lemma retainDigests_keep (ds : List Digest) (eviction : Eviction) :
    (ds.foldl retainDigest eviction).evicted = eviction.evicted ∧
      (ds.foldl retainDigest eviction).keep = eviction.keep ∪ (ds.map Digest.hash).toFinset := by
  induction ds generalizing eviction with
  | nil => simp
  | cons d ds ih =>
    obtain ⟨hev, hk⟩ := ih (eviction.retainDigest d)
    rw [foldl_cons, hev, hk]
    unfold retainDigest
    split
    next hm => simp [hm]
    next => simp [Finset.union_insert, Finset.insert_union]

variable (size) in
/-- The size of what is kept is that of its distinct blobs, up to overflow. -/
def Sized (eviction : Eviction) : Prop :=
  eviction.keepSize % 2 ^ 64 = (∑ hash ∈ eviction.keep, size hash) % 2 ^ 64

lemma Sized.retainDigests (h : Sized size eviction) {ds : List Digest}
    (hs : ∀ d ∈ ds, d.size.toNat = size d.hash) :
    Sized size (ds.foldl retainDigest eviction) := by
  induction ds generalizing eviction with
  | nil => exact h
  | cons d ds ih =>
    refine ih ?_ (fun o ho => hs o (mem_cons_of_mem _ ho))
    unfold retainDigest
    split
    next => exact h
    next hm =>
      unfold Sized usizeAdd at *
      rw [Finset.sum_insert hm, Nat.mod_mod, Nat.add_mod, h, hs d mem_cons_self,
        ← Nat.add_mod, Nat.add_comm]

lemma foldl_usizeAdd_mod (ss : List Nat) (start : Nat) :
    ss.foldl usizeAdd start % 2 ^ 64 = (start + ss.sum) % 2 ^ 64 := by
  induction ss generalizing start with
  | nil => simp
  | cons first ss ih =>
    rw [foldl_cons, ih, usizeAdd, Nat.mod_add_mod, sum_cons, Nat.add_assoc]

variable (size) in
/-- What `evict_manifests` compares with the budget. -/
def listedSize (keep : Finset String) (entry : ManifestEntry) : Nat :=
  (∑ hash ∈ keep, size hash + ((entry.digests.filter (fun digest => digest.hash ∉ keep)).map
    (fun digest => digest.size.toNat)).sum) % 2 ^ 64

variable (now lifetime maxSize size) in
/-- The rule of `evict_manifests`. -/
def ListedFits (keep : Finset String) (entry : ManifestEntry) : Prop :=
  ageOf now entry.modified ≤ lifetime ∧
    ∀ max, maxSize = some max → listedSize size keep entry ≤ max

variable (now lifetime maxSize) in
lemma visit_cases (h : Sized size eviction) (entry : ManifestEntry) :
    ListedFits now lifetime maxSize size eviction.keep entry ∧
        eviction.visit now lifetime maxSize entry = entry.digests.foldl retainDigest eviction ∨
      ¬ ListedFits now lifetime maxSize size eviction.keep entry ∧
        eviction.visit now lifetime maxSize entry =
          { eviction with evicted := eviction.evicted ++ [entry.hash] } := by
  have hs : usizeAdd eviction.keepSize (eviction.marginal entry) =
      listedSize size eviction.keep entry := by
    rw [usizeAdd, marginal, listedSize, Nat.add_mod, h, foldl_usizeAdd_mod, Nat.zero_add,
      ← Nat.add_mod]
  have ht : (decide (lifetime < ageOf now entry.modified) ||
      maxSize.any (fun max => max < listedSize size eviction.keep entry)) = false ↔
        ListedFits now lifetime maxSize size eviction.keep entry := by
    cases maxSize <;> simp [ListedFits]
  unfold visit
  dsimp only
  rw [hs, ← ht, Bool.not_eq_false]
  cases decide (lifetime < ageOf now entry.modified) ||
      maxSize.any (fun max => max < listedSize size eviction.keep entry) with
  | false => exact .inl ⟨rfl, rfl⟩
  | true => exact .inr ⟨rfl, rfl⟩

variable (now lifetime maxSize) in
lemma foldl_visit (es : List ManifestEntry) (eviction : Eviction) :
    ∃ kept evicted, es ~ kept ++ evicted ∧
      (es.foldl (visit now lifetime maxSize) eviction).evicted =
        eviction.evicted ++ evicted.map hash ∧
      ∀ hash, hash ∈ (es.foldl (visit now lifetime maxSize) eviction).keep ↔
        hash ∈ eviction.keep ∨ ∃ entry ∈ kept, ∃ d ∈ entry.digests, d.hash = hash := by
  induction es generalizing eviction with
  | nil => exact ⟨[], [], by simp⟩
  | cons f es ih =>
    obtain ⟨kept, evicted, hp, hev, hk⟩ := ih (eviction.visit now lifetime maxSize f)
    rw [foldl_cons]
    simp only [hk, hev]
    unfold visit
    dsimp only
    split
    next =>
      exact ⟨kept, f :: evicted, (hp.cons f).trans perm_middle.symm, by simp, by simp⟩
    next =>
      obtain ⟨hs, ha⟩ := retainDigests_keep f.digests eviction
      exact ⟨f :: kept, evicted, hp.cons f, by rw [hs], by simp [ha, or_assoc]⟩

lemma Sized.foldl_visit (h : Sized size eviction) {es : List ManifestEntry}
    (hs : ∀ entry ∈ es, ∀ d ∈ entry.digests, d.size.toNat = size d.hash) :
    Sized size (es.foldl (visit now lifetime maxSize) eviction) := by
  induction es generalizing eviction with
  | nil => exact h
  | cons f es ih =>
    refine ih ?_ (fun entry he => hs entry (mem_cons_of_mem _ he))
    unfold visit
    dsimp only
    split
    · exact h
    · exact h.retainDigests (hs f mem_cons_self)

end

section

variable {now : SystemTime} {lifetime : Nat} {maxSize : Option Nat} {size : String → Nat}
  {before later : List ManifestEntry} {entry : ManifestEntry}

lemma not_mem_evicted_iff (hn : ((before ++ entry :: later).map hash).Nodup)
    (hs : ∀ entry ∈ before, ∀ d ∈ entry.digests, d.size.toNat = size d.hash) :
    entry.hash ∉ ((before ++ entry :: later).foldl (visit now lifetime maxSize) {}).evicted ↔
      ListedFits now lifetime maxSize size (before.foldl (visit now lifetime maxSize) {}).keep
        entry := by
  obtain ⟨kept, evicted, hp, hev, -⟩ := foldl_visit now lifetime maxSize before {}
  obtain ⟨kept', evicted', hp', he', -⟩ := foldl_visit now lifetime maxSize later
    ((before.foldl (visit now lifetime maxSize) {}).visit now lifetime maxSize entry)
  rw [(perm_middle.map hash).nodup_iff, map_cons, nodup_cons, map_append] at hn
  have ho : entry.hash ∉ evicted.map hash := fun h =>
    hn.1 (mem_append_left _ ((hp.map _).mem_iff.mpr (by simp_all)))
  have hl : entry.hash ∉ evicted'.map hash := fun h =>
    hn.1 (mem_append_right _ ((hp'.map _).mem_iff.mpr (by simp_all)))
  have hsz : Sized size (before.foldl (visit now lifetime maxSize) {}) :=
    Sized.foldl_visit (by simp [Sized]) hs
  rw [foldl_append, foldl_cons, he']
  obtain ⟨hf, hv⟩ | ⟨hnt, hv⟩ := visit_cases now lifetime maxSize hsz entry
  · simp only [hv, (retainDigests_keep _ _).1, hev, mem_append, ho, hl, hf]
    simp
  · simp [hv, hnt]

end

/-- The order in which `evict_manifests` walks the manifests. -/
def newestFirst (entries : List ManifestEntry) : List ManifestEntry :=
  entries.insertionSort (fun a b => b.modified ≤ a.modified)

def newerEntry : ManifestEntry := ⟨"newer", 3, [⟨"shared", 4⟩, ⟨"b", 2⟩]⟩

def newEntry : ManifestEntry := ⟨"new", 2, [⟨"shared", 4⟩, ⟨"a", 3⟩]⟩

def oldEntry : ManifestEntry := ⟨"old", 0, [⟨"shared", 4⟩, ⟨"big", 5⟩]⟩

def entrySizes (hash : String) : Nat :=
  if hash = "shared" then 4 else if hash = "big" then 5 else if hash = "a" then 3 else 2

end Moon.Proofs
