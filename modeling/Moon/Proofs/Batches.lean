import Moon.Proofs.StorageBackend

/-! # Batches under a limit -/

namespace Moon.Proofs

open List

variable {α : Type} {m : Nat} {g : α → Nat} {bs : List (Batch α)} {xs : List α} {i : α}

/-- A batch under a limit is a single item that reaches the limit, or the items and what they cost
besides fit into it. -/
structure Packed (maxSize : Nat) (getSize : α → Nat) (batch : Batch α) : Prop where
  size_eq : batch.size = (batch.items.map (fun item => getSize item + BUFFER)).sum
  size_le : batch.stream = false → batch.size ≤ maxSize
  alone : batch.stream = true → ∃ item, batch.items = [item]
  stream_iff : ∀ item ∈ batch.items, batch.stream = true ↔ maxSize ≤ getSize item + BUFFER

lemma usizeAdd_eq {a b : Nat} (h : a + b < 2 ^ 64) : usizeAdd a b = a + b := Nat.mod_eq_of_lt h

lemma packed_single {stream : Bool} (h : stream ↔ m ≤ g i + BUFFER) :
    Packed m g ⟨[i], g i + BUFFER, stream, 0, 0⟩ where
  size_eq := by simp
  size_le hs := by
    by_contra hn
    cases hs.symm.trans (h.mpr (Nat.le_of_not_le hn))
  alone _ := ⟨i, rfl⟩
  stream_iff _ hm := by rwa [eq_of_mem_singleton hm]

lemma addToBatch_packed (hi : g i + BUFFER < m)
    (ho : addToBatchOverflows m (g i + BUFFER) bs = false) (hp : ∀ ba ∈ bs, Packed m g ba) :
    ∀ ba ∈ addToBatch m (g i + BUFFER) i bs, Packed m g ba := by
  induction bs with
  | nil =>
    intro ba hm
    rw [eq_of_mem_singleton hm]
    exact packed_single (by simp [hi])
  | cons f bs ih =>
    have hf := hp f mem_cons_self
    have hr : ∀ ba ∈ bs, Packed m g ba := fun b hb => hp b (mem_cons_of_mem _ hb)
    rw [addToBatchOverflows] at ho
    rw [addToBatch]
    cases hs : f.stream with
    | true =>
      rw [if_pos hs] at ho
      simp only [Bool.not_true, Bool.false_and, Bool.false_eq_true, if_false]
      exact forall_mem_cons.mpr ⟨hf, ih ho hr⟩
    | false =>
      rw [if_neg (by simp [hs])] at ho
      -- an overflow would have been met here
      have hl : f.size + (g i + BUFFER) < 2 ^ 64 := by
        by_contra hn
        rw [if_pos (by omega)] at ho
        cases ho
      rw [if_neg (by omega)] at ho
      rw [usizeAdd_eq hl]
      by_cases hw : f.size + (g i + BUFFER) ≤ m
      · rw [if_pos (by simp [hw])]
        refine forall_mem_cons.mpr ⟨⟨?_, fun _ => hw, fun ht => ?_, fun other hm => ?_⟩, hr⟩
        · simp [hf.size_eq]
        · cases ht
        · rcases mem_append.mp hm with hm | hm
          · rw [← hf.stream_iff other hm, hs]
          · rw [eq_of_mem_singleton hm]
            simp [hi]
      · rw [if_neg hw] at ho
        rw [if_neg (by simp [hw])]
        exact forall_mem_cons.mpr ⟨hf, ih ho hr⟩

lemma partitionItem_packed (hl : g i + BUFFER < 2 ^ 64)
    (ho : g i + BUFFER < m → addToBatchOverflows m (g i + BUFFER) bs = false)
    (hp : ∀ b ∈ bs, Packed m g b) : ∀ b ∈ partitionItem m g bs i, Packed m g b := by
  rw [partitionItem, usizeAdd_eq hl]
  by_cases hi : m ≤ g i + BUFFER
  · rw [if_pos hi]
    intro b hm
    rcases mem_append.mp hm with hm | hm
    · exact hp b hm
    · rw [eq_of_mem_singleton hm]
      exact packed_single (by simp [hi])
  · rw [if_neg hi]
    exact addToBatch_packed (by omega) (ho (by omega)) hp

lemma partitionOverflows_cons :
    partitionOverflows m g bs (i :: xs) = false ↔ g i + BUFFER < 2 ^ 64 ∧
      (g i + BUFFER < m → addToBatchOverflows m (g i + BUFFER) bs = false) ∧
      partitionOverflows m g (partitionItem m g bs i) xs = false := by
  rw [partitionOverflows]
  by_cases hl : g i + BUFFER < 2 ^ 64
  · rw [if_neg (Nat.not_le.mpr hl)]
    simp only [hl, true_and]
    by_cases hi : g i + BUFFER < m
    · cases addToBatchOverflows m (g i + BUFFER) bs <;> simp [hi]
    · simp [hi]
  · rw [if_pos (Nat.not_lt.mp hl)]
    exact ⟨nofun, fun h => absurd h.1 hl⟩

lemma forall_split_cons {β : Type} {y : β} {ys : List β} {P : List β → β → Prop} :
    (∀ before x after, y :: ys = before ++ x :: after → P before x) ↔
      P [] y ∧ ∀ before x after, ys = before ++ x :: after → P (y :: before) x := by
  constructor
  · exact fun h => ⟨h [] y ys rfl, fun before x after hy => h (y :: before) x after (hy ▸ rfl)⟩
  · rintro ⟨hy, hys⟩ before x after he
    rcases cons_eq_append_iff.mp he with ⟨rfl, hx⟩ | ⟨before, rfl, hr⟩
    · cases hx
      exact hy
    · exact hys before x after hr

/-- Batches are tried in turn, up to the first one with room. -/
lemma addToBatchOverflows_iff {n : Nat} : addToBatchOverflows m n bs = false ↔
    ∀ passed b rest, bs = passed ++ b :: rest → b.stream = false →
      (∀ o ∈ passed, o.stream = true ∨ m < o.size + n) → b.size + n < 2 ^ 64 := by
  induction bs with
  | nil => exact ⟨fun _ passed b rest h => by simp at h, fun _ => rfl⟩
  | cons f bs ih =>
    rw [forall_split_cons, addToBatchOverflows]
    cases hs : f.stream with
    | true => simp [ih, hs]
    | false =>
      by_cases hl : f.size + n < 2 ^ 64
      · by_cases hw : f.size + n ≤ m
        · simp [hw, hs, Nat.not_lt.mpr hw]
        · simp [hw, hs, ih, Nat.not_le.mp hw]
      · rw [if_neg Bool.false_ne_true, if_pos (Nat.not_lt.mp hl)]
        exact ⟨fun h => absurd h (by simp), fun h => absurd (h.1 rfl (fun _ ho => by cases ho)) hl⟩

lemma partitionOverflows_iff : partitionOverflows m g bs xs = false ↔
    ∀ before i after, xs = before ++ i :: after → g i + BUFFER < 2 ^ 64 ∧
      (g i + BUFFER < m →
        addToBatchOverflows m (g i + BUFFER) (before.foldl (partitionItem m g) bs) = false) := by
  induction xs generalizing bs with
  | nil => exact ⟨fun _ before i after h => by simp at h, fun _ => rfl⟩
  | cons x xs ih => rw [partitionOverflows_cons, ih, ← and_assoc, forall_split_cons]; rfl

lemma foldl_partitionItem_packed (ho : partitionOverflows m g bs xs = false)
    (hp : ∀ b ∈ bs, Packed m g b) : ∀ b ∈ xs.foldl (partitionItem m g) bs, Packed m g b := by
  induction xs generalizing bs with
  | nil => exact hp
  | cons i xs ih =>
    obtain ⟨hl, ha, hr⟩ := partitionOverflows_cons.mp ho
    exact ih hr (partitionItem_packed hl ha hp)

lemma addToBatchOverflows_of_packed {n : Nat} (hm : m ≤ 2 ^ 63) (hn : n < m)
    (hp : ∀ batch ∈ bs, Packed m g batch) : addToBatchOverflows m n bs = false := by
  induction bs with
  | nil => rfl
  | cons f bs ih =>
    have hr := ih (fun b hb => hp b (mem_cons_of_mem _ hb))
    rw [addToBatchOverflows, hr]
    split_ifs with hs ho hw
    · rfl
    · have hl := (hp f mem_cons_self).size_le (eq_false_of_ne_true hs)
      omega
    · rfl
    · rfl

lemma size_lt_of_partitions
    (ho : partitionOverflows m g bs xs = false) : ∀ x ∈ xs, g x + BUFFER < 2 ^ 64 := by
  induction xs generalizing bs with
  | nil => exact fun _ h => absurd h not_mem_nil
  | cons i xs ih =>
    obtain ⟨hl, -, hr⟩ := partitionOverflows_cons.mp ho
    exact forall_mem_cons.mpr ⟨hl, ih hr⟩

lemma partitions_of_size_lt (hm : m ≤ 2 ^ 63)
    (hp : ∀ b ∈ bs, Packed m g b) (hx : ∀ x ∈ xs, g x + BUFFER < 2 ^ 64) :
    partitionOverflows m g bs xs = false := by
  induction xs generalizing bs with
  | nil => rfl
  | cons i xs ih =>
    have hl := hx i mem_cons_self
    have ha := fun hi => addToBatchOverflows_of_packed (n := g i + BUFFER) hm hi hp
    refine partitionOverflows_cons.mpr ⟨hl, ha, ?_⟩
    exact ih (partitionItem_packed hl ha hp) (fun x h => hx x (mem_cons_of_mem _ h))

lemma mem_sortBySize {x : α} : x ∈ sortBySize xs g ↔ x ∈ xs := (perm_insertionSort _ xs).mem_iff

/-- Under a limit of at most half the range only a single item can be too large. -/
lemma createBatchesOverflows_iff :
    createBatchesOverflows xs m g = false ↔
      (m = 0 → ∀ b ∈ chunkIntoBatches xs g, (b.items.map g).sum < 2 ^ 64) ∧
      (0 < m → ∀ x ∈ xs, g x + BUFFER < 2 ^ 64) ∧
      (2 ^ 63 < m → partitionOverflows m g [] (sortBySize xs g) = false) := by
  rcases Nat.eq_zero_or_pos m with rfl | hm
  · rw [createBatchesOverflows, if_neg (Nat.lt_irrefl 0)]
    simp
  · rw [createBatchesOverflows, if_pos hm]
    constructor
    · intro h
      refine ⟨fun hz => absurd hz hm.ne', fun _ x hx => ?_, fun _ => h⟩
      exact size_lt_of_partitions h x (mem_sortBySize.mpr hx)
    · rintro ⟨-, hx, hl⟩
      rcases Nat.lt_or_ge (2 ^ 63) m with hg | hle
      · exact hl hg
      · exact partitions_of_size_lt hle (fun _ h => absurd h not_mem_nil)
          (fun x h => hx hm x (mem_sortBySize.mp h))

lemma drainChunks_length_le {c k : Nat} {n : Nat} (h : xs.length ≤ k * c) :
    (drainChunks c g n xs).length ≤ k := by
  induction n generalizing k xs with
  | zero => exact Nat.zero_le k
  | succ n ih =>
    cases xs with
    | nil => exact Nat.zero_le k
    | cons i xs =>
      cases k with
      | zero => simp at h
      | succ k =>
        rw [drainChunks, length_cons]
        refine Nat.succ_le_succ (ih ?_)
        rw [length_drop]
        rw [Nat.succ_mul] at h
        omega

/-- Rounding up a division covers what was divided. -/
lemma le_mul_div_ceil (n : Nat) {b : Nat} (hb : 0 < b) : n ≤ b * ((n + b - 1) / b) := by
  have h := Nat.lt_mul_div_succ (n + b - 1) hb
  rw [Nat.mul_succ] at h
  omega

lemma chunkIntoBatches_length_le (xs : List α) :
    (chunkIntoBatches xs g).length ≤ BLOCKING_THREAD_COUNT := by
  unfold chunkIntoBatches
  simp only [numberBatches, length_mapIdx]
  set n := min ((xs.length + CHUNK_TARGET_SIZE - 1) / CHUNK_TARGET_SIZE) BLOCKING_THREAD_COUNT
  refine le_trans (drainChunks_length_le (k := n) ?_) (Nat.min_le_right _ _)
  rcases Nat.eq_zero_or_pos n with hz | hp
  · -- there is a batch as soon as there is an item
    have hc := le_mul_div_ceil xs.length (b := CHUNK_TARGET_SIZE) (by decide)
    have hd : (xs.length + CHUNK_TARGET_SIZE - 1) / CHUNK_TARGET_SIZE = 0 :=
      (Nat.min_eq_zero_iff.mp hz).resolve_right (by decide)
    rw [hd] at hc
    omega
  · exact le_mul_div_ceil xs.length hp

lemma mem_numberBatches {ba : Batch α} (h : ba ∈ numberBatches bs) :
    ba.total = bs.length ∧
      ∃ b ∈ bs, ba.items = b.items ∧ ba.size = b.size ∧ ba.stream = b.stream := by
  obtain ⟨i, hi, rfl⟩ := mem_mapIdx.mp h
  exact ⟨rfl, bs[i], getElem_mem hi, rfl, rfl, rfl⟩

lemma numberBatches_index (bs : List (Batch α)) :
    (numberBatches bs).map Batch.index = range' 1 bs.length :=
  ext_getElem (by simp [numberBatches]) (by simp [numberBatches, Nat.add_comm])

/-- Where no sum overflows, nothing is lost, every batch under a limit is packed, there are no more
chunks than threads and they keep the order, and the batches are numbered from one. -/
theorem createBatches_packs (items : List α) (maxSize : Nat) (getSize : α → Nat)
    (hoverflow : createBatchesOverflows items maxSize getSize = false) :
    ((createBatches items maxSize getSize).flatMap Batch.items).Perm items ∧
      (0 < maxSize → ∀ batch ∈ createBatches items maxSize getSize, Packed maxSize getSize batch) ∧
      (maxSize = 0 →
        (createBatches items maxSize getSize).length ≤ BLOCKING_THREAD_COUNT ∧
        (createBatches items maxSize getSize).flatMap Batch.items = items) ∧
      (createBatches items maxSize getSize).map Batch.index =
        range' 1 (createBatches items maxSize getSize).length ∧
      ∀ batch ∈ createBatches items maxSize getSize,
        batch.total = (createBatches items maxSize getSize).length := by
  have hnum : ∃ bs, createBatches items maxSize getSize = numberBatches bs := by
    unfold createBatches
    split_ifs
    · exact ⟨_, rfl⟩
    · exact ⟨_, rfl⟩
  refine ⟨createBatches_perm items maxSize getSize, ?_, ?_, ?_⟩
  · intro hm batch hb
    rw [createBatchesOverflows, if_pos hm] at hoverflow
    rw [createBatches, if_pos hm] at hb
    obtain ⟨-, b, hbm, hi, hs, ht⟩ := mem_numberBatches hb
    have hp := foldl_partitionItem_packed hoverflow (fun _ h => absurd h not_mem_nil) b hbm
    exact ⟨by rw [hs, hi, hp.size_eq], by rw [hs, ht]; exact hp.size_le,
      by rw [ht, hi]; exact hp.alone, by rw [ht, hi]; exact hp.stream_iff⟩
  · rintro rfl
    exact ⟨chunkIntoBatches_length_le items, chunkIntoBatches_flatMap items getSize⟩
  · obtain ⟨bs, he⟩ := hnum
    have hl : (numberBatches bs).length = bs.length := by simp [numberBatches]
    rw [he, hl]
    exact ⟨numberBatches_index bs, fun batch hb => (mem_numberBatches hb).1⟩

/-- An item that is streamed and two that share a batch. -/
theorem three_items_in_two_batches :
    createBatchesOverflows [10, 700, 20] 1000 id = false ∧ createBatches [10, 700, 20] 1000 id =
        [⟨[700], 1000, true, 1, 2⟩, ⟨[20, 10], 630, false, 2, 2⟩] ∧
      ∀ batch ∈ createBatches [10, 700, 20] 1000 id, Packed 1000 id batch :=
  ⟨by decide, by decide, (createBatches_packs [10, 700, 20] 1000 id (by decide)).2.1 (by decide)⟩

end Moon.Proofs
