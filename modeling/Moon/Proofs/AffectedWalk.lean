import Moon.Proofs.AffectedTracker

/-!
# Walks over relations

A walk enters every item once, so it ends, and what it marks are the relations of everything
that can be reached.
-/

namespace Moon.Proofs

open Moon.Lib Relation List

section

variable {K : Type} [DecidableEq K] {ms : Map K (List AffectedBy)}

/-- The item is marked for this reason. -/
def HasMark (marks : Map K (List AffectedBy)) (key : K) (reason : AffectedBy) : Prop :=
  reason ∈ (marks.lookup key).getD []

@[simp] lemma hasMark_insertMark {key o : K} {reason mark : AffectedBy} :
    HasMark (insertMark ms key reason) o mark ↔ HasMark ms o mark ∨ o = key ∧ mark = reason := by
  unfold HasMark
  rw [lookup_insertMark]
  by_cases hk : o = key
  · subst hk
    rw [if_pos rfl, Option.getD_some]
    change mark ∈ List.insert reason _ ↔ _
    rw [List.mem_insert_iff, or_comm]
    simp
  · simp [hk]

/-- Nothing is marked without a reason. -/
def Reasoned (marks : Map K (List AffectedBy)) : Prop := ∀ key, marks.lookup key ≠ some []

lemma Reasoned.insertMark (h : Reasoned ms) (key : K)
    (reason : AffectedBy) : Reasoned (insertMark ms key reason) := by
  intro o hem
  rw [lookup_insertMark] at hem
  split_ifs at hem
  · have hm : reason ∈ insert reason ((ms.lookup key).getD []) := mem_insert_self
    change some (insert reason _) = _ at hem
    rw [Option.some.inj hem] at hm
    cases hm
  · exact h o hem

lemma RelationMarks.reasoned {ms' : Map K (List AffectedBy)}
    (h : RelationMarks ms ms') (hm : Reasoned ms) : Reasoned ms' := by
  induction h with
  | refl => exact hm
  | tail _ hs ih =>
    obtain ⟨key, reason, -, rfl⟩ := hs
    exact ih.insertMark key reason

lemma directlyMarked_iff {key : K} :
    directlyMarked ms key ↔ ∃ reason, HasMark ms key reason ∧ reason.isDirect := by
  unfold directlyMarked HasMark
  cases ms.lookup key with
  | none => simp
  | some reasons => simp

end

section

variable {K N : Type} [DecidableEq K] (key : N → K) (l : K → Except String N) (rs : N → List K)

def Related (source target : K) : Prop := ∃ item, l source = .ok item ∧ target ∈ rs item

structure Loadable (items : Finset K) : Prop where
  loads : ∀ k ∈ items, ∃ item, l k = .ok item ∧ key item = k
  inside : ∀ source ∈ items, ∀ target, Related l rs source target → target ∈ items

def WalkMark (reason : K → AffectedBy) (isNone isDirect : Bool) (start k : K)
    (mark : AffectedBy) : Prop :=
  isNone = false ∧ ∃ source,
    (if isDirect then source = start else ReflTransGen (Related l rs) start source) ∧
    Related l rs source k ∧ mark = reason source

/-- A walk enters what can be reached from where it starts, unless it was entered before, and
marks the relations of what it enters. -/
structure WalkSpec (reason : K → AffectedBy) (starts : K → Prop) (extra : K → AffectedBy → Prop)
    (marks : Map K (List AffectedBy)) (cycle : Finset K)
    (r : Map K (List AffectedBy) × Finset K) : Prop where
  subset : cycle ⊆ r.2
  entered : ∀ start, starts start → start ∈ r.2
  closed : ∀ source ∈ r.2, source ∉ cycle → ∀ target, Related l rs source target → target ∈ r.2
  reached : ∀ source ∈ r.2, source ∉ cycle →
    ∃ start, starts start ∧ ReflTransGen (Related l rs) start source
  marked : ∀ k mark, HasMark r.1 k mark ↔ HasMark marks k mark ∨ extra k mark ∨
    ∃ source ∈ r.2, source ∉ cycle ∧ Related l rs source k ∧ mark = reason source

variable {key l rs} {xs : Finset K} {reason : K → AffectedBy}
  {d : K → Map K (List AffectedBy) → Finset K → Except String (Map K (List AffectedBy) × Finset K)}

lemma WalkSpec.trans {f rest : K → Prop} {e e' : K → AffectedBy → Prop}
    {ms : Map K (List AffectedBy)} {c : Finset K} {r r' : Map K (List AffectedBy) × Finset K}
    (h : WalkSpec l rs reason f e ms c r) (h' : WalkSpec l rs reason rest e' r.1 r.2 r') :
    WalkSpec l rs reason (fun a => f a ∨ rest a) (fun k mark => e k mark ∨ e' k mark) ms c r' where
  subset := h.subset.trans h'.subset
  entered a hst := hst.elim (fun hf => h'.subset (h.entered a hf)) (h'.entered a)
  closed s hs hn target hr := by
    by_cases hen : s ∈ r.2
    · exact h'.subset (h.closed s hen hn target hr)
    · exact h'.closed s hs hen target hr
  reached s hs hn := by
    by_cases hen : s ∈ r.2
    · obtain ⟨a, hst, hp⟩ := h.reached s hen hn
      exact ⟨a, .inl hst, hp⟩
    · obtain ⟨a, hst, hp⟩ := h'.reached s hs hen
      exact ⟨a, .inr hst, hp⟩
  marked k mark := by
    have hsr : (∃ s ∈ r'.2, s ∉ c ∧ Related l rs s k ∧
          mark = reason s) ↔
        (∃ s ∈ r.2, s ∉ c ∧ Related l rs s k ∧ mark = reason s) ∨
        ∃ s ∈ r'.2, s ∉ r.2 ∧ Related l rs s k ∧ mark = reason s := by
      constructor
      · rintro ⟨s, hs, hn, hm⟩
        by_cases hen : s ∈ r.2
        · exact .inl ⟨s, hen, hn, hm⟩
        · exact .inr ⟨s, hs, hen, hm⟩
      · rintro (⟨s, hs, hn, hm⟩ | ⟨s, hs, hn, hm⟩)
        · exact ⟨s, h'.subset hs, hn, hm⟩
        · exact ⟨s, hs, fun ho => hn (h.subset ho), hm⟩
    rw [h'.marked, h.marked, hsr]
    simp only [or_assoc, or_left_comm]

lemma markRelations_walk {mark : AffectedBy} {f : Finset K}
    (hd : ∀ k ∈ xs, ∀ ms c, f ⊆ c → ∃ r, d k ms c = .ok r ∧
      WalkSpec l rs reason (· = k) (fun _ _ => False) ms c r)
    (ke : List K) (hky : ∀ k ∈ ke, k ∈ xs) (ms : Map K (List AffectedBy))
    (c : Finset K) (hc : f ⊆ c) :
    ∃ r, markRelations d mark false ke ms c = .ok r ∧
      WalkSpec l rs reason (· ∈ ke) (fun k m => k ∈ ke ∧ m = mark) ms c r := by
  induction ke generalizing ms c with
  | nil =>
    refine ⟨(ms, c), rfl, Finset.Subset.refl _, fun _ hst => (nomatch hst),
      fun _ hs hn => absurd hs hn, fun _ hs hn => absurd hs hn,
      fun k m => ⟨.inl, fun h => h.resolve_right ?_⟩⟩
    rintro (⟨hk, _⟩ | ⟨s, hs, hn, _⟩)
    · cases hk
    · exact hn hs
  | cons re rest ih =>
    have hi : WalkSpec l rs reason (fun _ => False)
        (fun k m => k = re ∧ m = mark) ms c (insertMark ms re mark, c) := by
      refine ⟨Finset.Subset.refl _, fun _ hst => hst.elim, fun _ hs hn => ?_,
        fun _ hs hn => absurd hs hn, fun k m => ?_⟩
      · exact absurd hs hn
      · rw [hasMark_insertMark]
        refine or_congr_right ⟨.inl, fun h => h.resolve_right ?_⟩
        rintro ⟨s, hs, hn, _⟩
        exact hn hs
    obtain ⟨r, hr, hw⟩ := hd re (hky re mem_cons_self) (insertMark ms re mark) c hc
    obtain ⟨r', hr', hrs⟩ := ih (fun k hk => hky k (mem_cons_of_mem _ hk)) r.1 r.2
      (hc.trans hw.subset)
    have ha := (hi.trans hw).trans hrs
    refine ⟨r', ?_, ha.subset, fun a hst => ha.entered a ?_, ha.closed, ?_, ?_⟩
    · simp only [markRelations, Bool.false_eq_true, if_false, hr]
      exact hr'
    · simpa using hst
    · intro s hs hn
      obtain ⟨a, hst, hp⟩ := ha.reached s hs hn
      exact ⟨a, by simpa using hst, hp⟩
    · intro k m
      rw [ha.marked]
      simp only [mem_cons, or_false, or_and_right]

lemma trackRelations_walk (hld : Loadable key l rs xs) {n : Nat}
    (d : UInt16) {x : N} (hitm : key x ∈ xs) (hsl : l (key x) = .ok x)
    (ms : Map K (List AffectedBy)) (c : Finset K) (hfl : (xs \ c).card < n) :
    ∃ r, trackRelations key l rs reason false false n d x ms c = .ok r ∧
      WalkSpec l rs reason (· = key x) (fun _ _ => False) ms c r := by
  induction n generalizing d x ms c with
  | zero => omega
  | succ n ih =>
    unfold trackRelations
    by_cases hc : key x ∈ c
    · rw [if_pos hc]
      refine ⟨(ms, c), rfl, Finset.Subset.refl _, fun a hst => hst ▸ hc,
        fun _ hs hn => absurd hs hn, fun _ hs hn => absurd hs hn,
        fun k m => ⟨.inl, fun h => h.resolve_right ?_⟩⟩
      rintro (hf | ⟨s, hs, hn, _⟩)
      · exact hf
      · exact hn hs
    · rw [if_neg hc]
      simp only [Bool.false_eq_true, if_false, Bool.and_false]
      have hin : ∀ k ∈ rs x, k ∈ xs :=
        fun k hk => hld.inside (key x) hitm k ⟨x, hsl, hk⟩
      -- the item itself is entered, so that fewer are left for the relations
      have hls : ∀ e, insert (key x) c ⊆ e →
          (xs \ e).card < n := by
        intro e hsb
        have hlt : (xs \ e).card < (xs \ c).card := by
          refine Finset.card_lt_card (Finset.ssubset_iff_of_subset ?_ |>.mpr
            ⟨key x, Finset.mem_sdiff.mpr ⟨hitm, hc⟩, ?_⟩)
          · exact Finset.sdiff_subset_sdiff (Finset.Subset.refl _)
              ((Finset.subset_insert _ _).trans hsb)
          · exact fun hm => (Finset.mem_sdiff.mp hm).2 (hsb (Finset.mem_insert_self _ _))
        omega
      have hd : ∀ k ∈ xs, ∀ ms e, insert (key x) c ⊆ e →
          ∃ r, (do
              let x ← l k
              trackRelations key l rs reason false false n (d + 1) x ms
                e) = .ok r ∧
            WalkSpec l rs reason (· = k) (fun _ _ => False) ms e r := by
        intro k hk ms e hsb
        obtain ⟨next, hnx, hky⟩ := hld.loads k hk
        subst hky
        obtain ⟨r, hr, hw⟩ := ih (d + 1) hk hnx ms e (hls e hsb)
        refine ⟨r, ?_, hw⟩
        simp only [hnx]
        exact hr
      obtain ⟨r, hr, hlp⟩ := markRelations_walk hd (rs x) hin ms
        (insert (key x) c) (Finset.Subset.refl _)
      have hrl : ∀ k, Related l rs (key x) k ↔ k ∈ rs x := by
        intro k
        constructor
        · rintro ⟨f, hfd, hk⟩
          cases hsl.symm.trans hfd
          exact hk
        · exact fun hk => ⟨x, hsl, hk⟩
      have hsp : ∀ s ∈ r.2, s ∉ c →
          s = key x ∨ s ∉ insert (key x) c := by
        intro s _ hn
        by_cases heq : s = key x
        · exact .inl heq
        · exact .inr (fun hm => hn (Finset.mem_of_mem_insert_of_ne hm heq))
      have hi : key x ∈ r.2 := hlp.subset (Finset.mem_insert_self _ _)
      refine ⟨r, hr, (Finset.subset_insert _ _).trans hlp.subset, fun a hst => hst ▸ hi, ?_, ?_, ?_⟩
      · intro s hs hn t ht
        rcases hsp s hs hn with rfl | hl
        · exact hlp.entered t ((hrl t).mp ht)
        · exact hlp.closed s hs hl t ht
      · intro s hs hn
        refine ⟨key x, rfl, ?_⟩
        rcases hsp s hs hn with rfl | hl
        · exact .refl
        · obtain ⟨a, hst, hp⟩ := hlp.reached s hs hl
          exact .head ((hrl a).mpr hst) hp
      · intro k m
        rw [hlp.marked]
        refine or_congr_right ⟨?_, ?_⟩
        · rintro (⟨hk, rfl⟩ | ⟨s, hs, hn, hmr⟩)
          · exact .inr ⟨key x, hi, hc, (hrl k).mpr hk, rfl⟩
          · exact .inr ⟨s, hs, fun hm => hn (Finset.mem_insert_of_mem hm), hmr⟩
        · rintro (hf | ⟨s, hs, hn, hk, rfl⟩)
          · exact hf.elim
          · rcases hsp s hs hn with rfl | hl
            · exact .inl ⟨(hrl k).mp hk, rfl⟩
            · exact .inr ⟨s, hs, hl, hk, rfl⟩

lemma markRelations_direct {mark : AffectedBy} (ke : List K)
    (ms : Map K (List AffectedBy)) (c : Finset K) :
    ∃ r, markRelations d mark true ke ms c = .ok r ∧
      ∀ k m, HasMark r.1 k m ↔ HasMark ms k m ∨ k ∈ ke ∧ m = mark := by
  induction ke generalizing ms with
  | nil => exact ⟨(ms, c), rfl, fun k m => by simp⟩
  | cons re rest ih =>
    obtain ⟨r, hr, hm⟩ := ih (insertMark ms re mark)
    refine ⟨r, hr, fun k m => ?_⟩
    rw [hm, hasMark_insertMark, mem_cons, or_and_right, or_assoc]

lemma trackRelations_marks (hl : Loadable key l rs xs) {n : Nat} {x : N} (hi : key x ∈ xs)
    (hs : l (key x) = .ok x) (isNone i : Bool) (ms : Map K (List AffectedBy)) (hfl : xs.card < n) :
    ∃ r, trackRelations key l rs reason isNone i n 0 x ms ∅ = .ok r ∧
      ∀ k m, HasMark r.1 k m ↔ HasMark ms k m ∨ WalkMark l rs reason isNone i (key x) k m := by
  have hn : key x ∉ (∅ : Finset K) := Finset.notMem_empty _
  obtain ⟨n, rfl⟩ := Nat.exists_eq_add_one.mpr (Nat.zero_lt_of_lt hfl)
  cases isNone with
  | true =>
    refine ⟨(ms, insert (key x) ∅), ?_, fun k m => by simp [WalkMark]⟩
    rw [trackRelations, if_neg hn, if_pos rfl]
  | false =>
    cases i with
    | true =>
      have hrl : ∀ k, Related l rs (key x) k ↔ k ∈ rs x := by
        intro k
        constructor
        · rintro ⟨f, hf, hk⟩
          cases hs.symm.trans hf
          exact hk
        · exact fun hk => ⟨x, hs, hk⟩
      obtain ⟨r, hr, hm⟩ := markRelations_direct (rs x) ms (insert (key x) ∅)
      refine ⟨r, ?_, fun k m => ?_⟩
      · rw [trackRelations, if_neg hn]
        exact hr
      · rw [hm]
        simp [WalkMark, hrl]
    | false =>
      obtain ⟨r, hr, hw⟩ := trackRelations_walk hl 0 hi hs ms ∅ (by rwa [Finset.sdiff_empty])
      refine ⟨r, hr, fun k m => ?_⟩
      have hen : ∀ s, s ∈ r.2 ↔
          ReflTransGen (Related l rs) (key x) s := by
        intro s
        constructor
        · intro hsr
          obtain ⟨a, rfl, hp⟩ := hw.reached s hsr (Finset.notMem_empty _)
          exact hp
        · intro hp
          induction hp with
          | refl => exact hw.entered _ rfl
          | tail _ hst ih => exact hw.closed _ ih (Finset.notMem_empty _) _ hst
      rw [hw.marked]
      simp [WalkMark, hen]

end

end Moon.Proofs
