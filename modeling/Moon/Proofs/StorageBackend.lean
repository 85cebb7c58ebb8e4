import Mathlib.Data.List.Flatten
import Mathlib.Data.List.Perm.Subperm
import Moon.Lib.Except
import Moon.Storage

/-!
# Batched requests

Batching loses nothing and repeats nothing: the items of the batches are a permutation of the
items given.
-/

namespace Moon.Proofs
open Lib StorageBackend List Batch BlobInput

section

variable {α : Type}

lemma addToBatch_perm (ma i : Nat) (x : α) (bs : List (Batch α)) :
    ((addToBatch ma i x bs).flatMap items).Perm (x :: bs.flatMap items) := by
  induction bs with
  | nil => simp [addToBatch]
  | cons batch bs ih =>
    rw [addToBatch]
    split
    · simp only [flatMap_cons, append_assoc, singleton_append]
      exact perm_middle
    · simp only [flatMap_cons]
      exact (ih.append_left batch.items).trans perm_middle

lemma foldl_partitionItem_perm (ma : Nat) (g : α → Nat) (xs : List α) (bs : List (Batch α)) :
    ((xs.foldl (partitionItem ma g) bs).flatMap items).Perm (xs ++ bs.flatMap items) := by
  induction xs generalizing bs with
  | nil => simp
  | cons x xs ih =>
    refine (ih _).trans ((Perm.append_left xs ?_).trans perm_middle)
    unfold partitionItem
    dsimp only
    split
    · simp
    · exact addToBatch_perm _ _ _ _

lemma numberBatches_flatMap (bs : List (Batch α)) :
    (numberBatches bs).flatMap items = bs.flatMap items := by
  rw [flatMap_def, flatMap_def]
  congr 1
  exact ext_getElem (by simp [numberBatches]) (by simp [numberBatches])

lemma drainChunks_flatMap {c : Nat} (hchn : 0 < c) (g : α → Nat)
    {n : Nat} {xs : List α} (hf : xs.length ≤ n) : (drainChunks c g n xs).flatMap items = xs := by
  induction n generalizing xs with
  | zero =>
    have hn : xs = [] := length_eq_zero_iff.mp (by omega)
    simp [hn, drainChunks]
  | succ n ih =>
    cases xs with
    | nil => rfl
    | cons x xs =>
      have hr : ((x :: xs).drop c).length ≤ n := by
        simp only [length_drop, length_cons] at hf ⊢
        omega
      simp only [drainChunks, flatMap_cons, ih hr, take_append_drop]

lemma chunkIntoBatches_flatMap (xs : List α) (g : α → Nat) :
    (chunkIntoBatches xs g).flatMap items = xs := by
  cases xs with
  | nil => rfl
  | cons x xs =>
    have hc : 0 < min (((x :: xs).length + CHUNK_TARGET_SIZE - 1) / CHUNK_TARGET_SIZE)
        BLOCKING_THREAD_COUNT := by
      have hf : 0 < ((x :: xs).length + CHUNK_TARGET_SIZE - 1) / CHUNK_TARGET_SIZE := by
        apply Nat.div_pos
        · simp only [length_cons]
          omega
        · decide
      exact Nat.lt_min.mpr ⟨hf, by decide⟩
    refine (numberBatches_flatMap _).trans (drainChunks_flatMap ?_ g le_rfl)
    apply Nat.div_pos
    · simp only [length_cons]
      omega
    · exact hc

lemma createBatches_perm (xs : List α) (ma : Nat) (g : α → Nat) :
    ((createBatches xs ma g).flatMap items).Perm xs := by
  unfold createBatches
  split
  · have hf := foldl_partitionItem_perm ma g (sortBySize xs g) []
    rw [flatMap_nil, append_nil] at hf
    rw [partitionIntoBatches, numberBatches_flatMap]
    exact hf.trans (perm_insertionSort _ xs)
  · rw [chunkIntoBatches_flatMap]

end

variable {ins : List BlobInput} {m : List Digest} {r : StoreResult} {β : Type} {α : Type}
  {bs : List (Batch Digest)}

section

variable {σ : Type} {b : StorageBackend σ} {I : σ → Prop} {c : Batch α → Request σ β} {s : σ}
  {j : List (Except StorageError β) × Bool}

lemma findMissingInBatches_keeps
    (hf : ∀ {ds s r s'}, (b.findMissingBlobs ds).run s = (r, s') → I s → I s') {s' : σ}
    {r : Except StorageError (List Digest)} (h : (b.findMissingInBatches bs).run s = (r, s'))
    (hs : I s) : I s' := by
  induction bs generalizing s s' r with
  | nil =>
    obtain ⟨_, rfl⟩ := run_pure h
    exact hs
  | cons batch bs ih =>
    obtain ⟨answer, t, hb, hr⟩ := run_bind h
    have ht : I t := hf hb hs
    cases answer with
    | error error =>
      obtain ⟨_, rfl⟩ := run_pure hr
      exact ht
    | ok m =>
      obtain ⟨others, u, ho, hen⟩ := run_bind hr
      have hu : I u := ih ho ht
      cases others with
      | error | ok =>
        obtain ⟨_, rfl⟩ := run_pure hen
        exact hu

lemma runBatches_keeps {bs : List (Batch α)}
    (hc : ∀ ba ∈ bs, ∀ {s r s'}, (c ba).run s = (r, s') → I s → I s')
    {s' : σ} {rs : List (Except StorageError β)}
    (h : (runBatches c bs).run s = (rs, s')) (hs : I s) : I s' := by
  induction bs generalizing s s' rs with
  | nil =>
    obtain ⟨_, rfl⟩ := run_pure h
    exact hs
  | cons ba bs ih =>
    obtain ⟨answer, t, hb, hr⟩ := run_bind h
    obtain ⟨others, u, hos, hen⟩ := run_bind hr
    obtain ⟨_, rfl⟩ := run_pure hen
    have ht : I t := hc ba mem_cons_self hb hs
    exact ih (fun o ho => hc o (mem_cons_of_mem _ ho)) hos ht

lemma joinBatches_run (sc : Schedule) {bs : List (Batch α)} {s' : σ}
    (h : (joinBatches sc c bs).run s = (j, s')) :
    ∃ ran taken rs, (runBatches c ((sc.order bs).take ran)).run s = (rs, s') ∧
        j.1 = rs.take taken := by
  unfold joinBatches at h
  cases hi : sc.interrupt with
  | none =>
    rw [hi] at h
    obtain ⟨rs, t, hr, hen⟩ := run_bind h
    obtain ⟨rfl, rfl⟩ := run_pure hen
    refine ⟨(sc.order bs).length, rs.length, rs, ?_, ?_⟩
    · rw [take_length]
      exact hr
    · exact take_length.symm
  | some i =>
    rw [hi] at h
    obtain ⟨rs, t, hr, hen⟩ := run_bind h
    obtain ⟨rfl, rfl⟩ := run_pure hen
    exact ⟨max i.joined i.ran, i.joined, rs, hr, rfl⟩

lemma mem_of_mem_take_order {s : Schedule} {bs : List (Batch α)}
    {ba : Batch α} {ran : Nat} (h : ba ∈ (s.order bs).take ran) : ba ∈ bs :=
  (s.order_perm bs).mem_iff.mp (mem_of_mem_take h)

lemma joinBatches_keeps (sc : Schedule) {bs : List (Batch α)}
    (hc : ∀ ba ∈ bs, ∀ {s r s'}, (c ba).run s = (r, s') → I s → I s') {s' : σ}
    (h : (joinBatches sc c bs).run s = (j, s')) (hs : I s) : I s' := by
  obtain ⟨ran, taken, rs, hr, _⟩ := joinBatches_run sc h
  exact runBatches_keeps (fun ba hb => hc ba (mem_of_mem_take_order hb)) hr hs

lemma runBatches_items {P : β → Prop} {c : Batch α → Request σ (List β)} {bs : List (Batch α)}
    (hc : ∀ batch ∈ bs, ∀ {s r s'}, (c batch).run s = (r, s') → I s →
      I s' ∧ ∀ xs, r = .ok xs → ∀ x ∈ xs, P x) {s' : σ} {rs : List (Except StorageError (List β))}
    (h : (runBatches c bs).run s = (rs, s')) (hs : I s) : ∀ x ∈ joinedItems rs, P x := by
  induction bs generalizing s s' rs with
  | nil =>
    obtain ⟨rfl, rfl⟩ := run_pure h
    simp [joinedItems]
  | cons batch bs ih =>
    obtain ⟨answer, t, hb, hr⟩ := run_bind h
    obtain ⟨others, u, hos, hen⟩ := run_bind hr
    obtain ⟨rfl, rfl⟩ := run_pure hen
    obtain ⟨ht, hitm⟩ := hc batch mem_cons_self hb hs
    have htl := ih (fun o ho => hc o (mem_cons_of_mem _ ho)) hos ht
    intro x hi
    cases answer with
    | error error => exact htl x hi
    | ok xs =>
      rcases mem_append.mp hi with hi | hi
      · exact hitm xs rfl x hi
      · exact htl x hi

lemma joinedItems_take_sublist (rs : List (Except StorageError (List α)))
    (n : Nat) : (joinedItems (rs.take n)).Sublist (joinedItems rs) := by
  unfold joinedItems
  rw [flatMap_def, flatMap_def]
  exact ((take_sublist n rs).map _).flatten

lemma storeMissingBlobs_keeps {sc : σ → Schedule}
    (hst : ∀ xs st, (∀ i ∈ xs, i ∈ ins ∧ i.digest ∈ m) →
      ∀ {s r s'}, (b.storeBlobs xs st).run s = (r, s') → I s → I s')
    {s' : σ} (h : (b.storeMissingBlobs sc ins m).run s = (r, s'))
    (hs : I s) : I s' := by
  obtain ⟨⟨rs, abort⟩, u, hj, hen⟩ := run_bind (run_get_bind h)
  obtain ⟨_, rfl⟩ := run_pure hen
  refine joinBatches_keeps (sc s) (fun ba hb => ?_) hj hs
  refine hst ba.items ba.stream (fun i hi => ?_)
  have hme := (createBatches_perm _ _ _).mem_iff.mp (mem_flatMap.mpr ⟨ba, hb, hi⟩)
  have hm := mem_filter.mp hme
  exact ⟨hm.1, of_decide_eq_true hm.2⟩

lemma storeBlobsBatched_keeps
    (hf : ∀ {ds s r s'}, (b.findMissingBlobs ds).run s = (r, s') → I s → I s')
    (hst : ∀ {ins stream s r s'}, (b.storeBlobs ins stream).run s = (r, s') → I s → I s')
    {schedule : σ → Schedule} {s' : σ} (h : (b.storeBlobsBatched schedule ins).run s = (r, s'))
    (hs : I s) : I s' := by
  obtain ⟨answer, t, hm, hr⟩ := run_bind h
  have ht : I t := findMissingInBatches_keeps hf (run_get_bind hm) hs
  cases answer with
  | error error =>
    obtain ⟨_, rfl⟩ := run_pure hr
    exact ht
  | ok m =>
    cases m with
    | nil =>
      obtain ⟨_, rfl⟩ := run_pure hr
      exact ht
    | cons first m =>
      exact storeMissingBlobs_keeps (fun _ _ _ => hst) hr ht

end

/-- A backend that reports truthfully which blobs are `present`, though a request may fail or store
only a part. What is present stays present. -/
structure Truthful {σ : Type} (backend : StorageBackend σ) (present : σ → Digest → Prop) :
    Prop where
  find_keeps : ∀ {ds s r s'}, (backend.findMissingBlobs ds).run s = (r, s') →
      ∀ digest, present s digest → present s' digest
  find_reports : ∀ {ds s m s'}, (backend.findMissingBlobs ds).run s = (.ok m, s') →
      ∀ digest ∈ ds, digest ∉ m → present s' digest
  store_keeps : ∀ {ins stream s r s'}, (backend.storeBlobs ins stream).run s = (r, s') →
      ∀ digest, present s digest → present s' digest
  store_reports : ∀ {ins stream s stored s'},
    (backend.storeBlobs ins stream).run s = (.ok stored, s') →
      stored.Subperm (ins.map BlobInput.digest) ∧ ∀ digest ∈ stored, present s' digest

section

variable {σ : Type} {b : StorageBackend σ} {p : σ → Digest → Prop} {s s' : σ}

lemma findMissingInBatches_reports (htr : Truthful b p)
    (h : (b.findMissingInBatches bs).run s = (.ok m, s')) :
    ∀ d ∈ bs.flatMap items, d ∉ m → p s' d := by
  induction bs generalizing s s' m with
  | nil => simp
  | cons batch bs ih =>
    intro d hd hm
    obtain ⟨answer, t, hf, hr⟩ := run_bind h
    cases answer with
    | error error => cases (run_pure hr).1
    | ok first =>
      obtain ⟨others, u, ho, hen⟩ := run_bind hr
      cases others with
      | error error => cases (run_pure hen).1
      | ok rest =>
        obtain ⟨heq, rfl⟩ := run_pure hen
        cases heq
        rw [flatMap_cons, mem_append] at hd
        rw [mem_append, not_or] at hm
        cases hd with
        | inl hbt =>
          have ht : p t d := htr.find_reports hf d hbt hm.1
          exact findMissingInBatches_keeps (fun hrn => htr.find_keeps hrn d) ho ht
        | inr hb => exact ih ho d hb hm.2

lemma findMissingBlobsBatched_reports (ht : Truthful b p) {sc : σ → Schedule} {ds : List Digest}
    (h : (b.findMissingBlobsBatched sc ds).run s = (.ok m, s')) : ∀ d ∈ ds, d ∉ m → p s' d := by
  intro d hd hm
  let bs := createBatches ds b.capabilities.maxBatchTotalSizeBytes (fun d => d.hash.utf8ByteSize)
  have hr : (b.findMissingInBatches ((sc s).order bs)).run s = (.ok m, s') := run_get_bind h
  have hi : (((sc s).order bs).flatMap items).Perm ds :=
    (((sc s).order_perm bs).flatMap_right _).trans (createBatches_perm _ _ _)
  exact findMissingInBatches_reports ht hr d (hi.mem_iff.mpr hd) hm

/-- The uploads of some batches keep what is present, and report what is present and among the
inputs, each input at most once. -/
lemma runBatches_storeBlobs (ht : Truthful b p) {bs : List (Batch BlobInput)}
    {rs : List (Except StorageError (List Digest))}
    (h : (runBatches (fun batch => b.storeBlobs batch.items batch.stream) bs).run s = (rs, s')) :
    (joinedItems rs).Subperm ((bs.flatMap items).map digest) ∧
      (∀ d ∈ joinedItems rs, p s' d) ∧
      ∀ d, p s d → p s' d := by
  induction bs generalizing s s' rs with
  | nil =>
    obtain ⟨rfl, rfl⟩ := run_pure h
    exact ⟨nil_subperm, by simp [joinedItems], fun _ hs => hs⟩
  | cons batch bs ih =>
    obtain ⟨answer, t, hstr, hrs⟩ := run_bind h
    obtain ⟨others, u, ho, hen⟩ := run_bind hrs
    obtain ⟨rfl, rfl⟩ := run_pure hen
    obtain ⟨hsb, hst, hk⟩ := ih ho
    have hkp : ∀ d, p s d → p u d := fun d hs => hk d (ht.store_keeps hstr d hs)
    rw [flatMap_cons, map_append]
    cases answer with
    | error error =>
      refine ⟨hsb.trans ?_, hst, hkp⟩
      exact (sublist_append_right _ _).subperm
    | ok stored =>
      have hr := ht.store_reports hstr
      refine ⟨List.Subperm.append hr.1 hsb, fun d hd => ?_, hkp⟩
      cases mem_append.mp hd with
      | inl hf => exact hk d (hr.2 d hf)
      | inr hl => exact hst d hl

lemma map_take_order_subperm (f : α → β) (s : Schedule) (bs : List (Batch α)) (n : Nat) :
    ((((s.order bs).take n).flatMap items).map f).Subperm ((bs.flatMap items).map f) := by
  have ht : (((s.order bs).take n).flatMap items).Sublist ((s.order bs).flatMap items) := by
    rw [flatMap_def, flatMap_def]
    exact ((take_sublist n _).map _).flatten
  have ho := (s.order_perm bs).flatMap_right items
  exact (ht.map f).subperm.trans (ho.map f).subperm

lemma retainUnseen_sublist (s : List Digest) (ins : List BlobInput) :
    (retainUnseen s ins).Sublist ins := by
  induction ins generalizing s with
  | nil => exact List.Sublist.refl _
  | cons i ins ih =>
    rw [retainUnseen]
    split
    · exact (ih s).cons i
    · exact (ih (i.digest :: s)).cons_cons i

lemma mem_retainUnseen {s : List Digest} {d : Digest} (hu : d ∉ s) (h : d ∈ ins.map digest) :
    d ∈ (retainUnseen s ins).map digest := by
  induction ins generalizing s with
  | nil => cases h
  | cons i ins ih =>
    rw [map_cons, mem_cons] at h
    rw [retainUnseen]
    by_cases hs : i.digest ∈ s
    · rw [if_pos hs]
      have hn : d ≠ i.digest := fun heq => hu (heq ▸ hs)
      exact ih hu (h.resolve_left hn)
    · rw [if_neg hs, map_cons, mem_cons]
      by_cases heq : d = i.digest
      · exact .inl heq
      · refine .inr (ih ?_ (h.resolve_left heq))
        simp [heq, hu]

lemma retainUnseen_nodup (s : List Digest) (ins : List BlobInput) :
    ((retainUnseen s ins).map digest).Nodup ∧ ∀ d ∈ (retainUnseen s ins).map digest, d ∉ s := by
  induction ins generalizing s with
  | nil => simp [retainUnseen]
  | cons i ins ih =>
    rw [retainUnseen]
    by_cases hs : i.digest ∈ s
    · rw [if_pos hs]
      exact ih s
    · rw [if_neg hs, map_cons, nodup_cons]
      obtain ⟨hn, hf⟩ := ih (i.digest :: s)
      refine ⟨⟨fun hm => hf _ hm mem_cons_self, hn⟩, fun d hd => ?_⟩
      cases mem_cons.mp hd with
      | inl heq => exact heq ▸ hs
      | inr hr => exact fun hm => hf d hr (mem_cons_of_mem _ hm)

lemma storeMissingBlobs_success (htr : Truthful b p) {sc : σ → Schedule}
    (hn : (ins.map digest).Nodup) (h : (b.storeMissingBlobs sc ins m).run s = (r, s')) :
    (∀ d, p s d → p s' d) ∧ (r.success → ∀ d ∈ ins.map digest, d ∈ m → p s' d) := by
  let ms := ins.filter (fun i => i.digest ∈ m)
  obtain ⟨⟨rs, abort⟩, t, hj, hen⟩ := run_bind (run_get_bind h)
  obtain ⟨rfl, rfl⟩ := run_pure hen
  obtain ⟨ran, taken, all, hr, heq⟩ := joinBatches_run (sc s) hj
  obtain ⟨hsu, hst, hk⟩ := runBatches_storeBlobs htr hr
  refine ⟨hk, fun hs d hd hm => ?_⟩
  have ht : (joinedItems rs).Sublist (joinedItems all) := by
    rw [show rs = all.take taken from heq]
    exact joinedItems_take_sublist all taken
  have ha : (joinedItems rs).Subperm (ms.map digest) :=
    ht.subperm.trans (hsu.trans ((map_take_order_subperm digest (sc s) _ ran).trans
        ((createBatches_perm ms _ _).map digest).subperm))
  have hf : (ms.map digest).length ≤ m.length := by
    have hsb : (ms.map digest).Sublist (ins.map digest) := filter_sublist.map _
    have hsbs : ms.map digest ⊆ m := by
      intro d hd
      obtain ⟨i, hi, rfl⟩ := mem_map.mp hd
      exact of_decide_eq_true (mem_filter.mp hi).2
    exact (List.Nodup.subperm (hn.sublist hsb) hsbs).length_le
  have hc : (joinedItems rs).length = m.length := by
    simp only [Bool.and_eq_true, beq_iff_eq] at hs
    exact hs.2
  have hp := ha.perm_of_length_le (hc ▸ hf)
  obtain ⟨i, hi, rfl⟩ := mem_map.mp hd
  refine hst _ (ht.subset (hp.mem_iff.mpr (mem_map_of_mem ?_)))
  exact mem_filter.mpr ⟨hi, decide_eq_true hm⟩

lemma storeBlobsBatched_success (ht : Truthful b p) {schedule : σ → Schedule}
    (h : (b.storeBlobsBatched schedule ins).run s = (r, s')) (hs : r.success) :
    ∀ d ∈ ins.map digest, p s' d := by
  intro d hd
  have hr : d ∈ (retainUnseen [] ins).map digest := mem_retainUnseen not_mem_nil hd
  obtain ⟨answer, t, hfn, hrs⟩ := run_bind h
  cases answer with
  | error error =>
    obtain ⟨rfl, _⟩ := run_pure hrs
    cases hs
  | ok m =>
    have hf := findMissingBlobsBatched_reports ht hfn d hr
    cases m with
    | nil =>
      obtain ⟨_, rfl⟩ := run_pure hrs
      exact hf not_mem_nil
    | cons first m =>
      obtain ⟨hk, hst⟩ := storeMissingBlobs_success ht (retainUnseen_nodup [] ins).1 hrs
      by_cases hm : d ∈ first :: m
      · exact hst hs d hr hm
      · exact hk d (hf hm)

end

end Moon.Proofs
