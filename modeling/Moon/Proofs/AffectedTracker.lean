import Moon.AffectedTracker
import Moon.Proofs.WorkspaceGraph

/-!
# Marks of the affected tracker

A walk over relations adds marks that are not direct, so what is affected without relations
never changes.
-/

namespace Moon.Proofs

open Moon.Lib List

variable {reason : AffectedBy}

section

variable {K N : Type} [DecidableEq K] {ms : Map K (List AffectedBy)}

def RelationMark (marks marks' : Map K (List AffectedBy)) : Prop :=
  ∃ key reason, reason.isDirect = false ∧ marks' = insertMark marks key reason

abbrev RelationMarks : Map K (List AffectedBy) → Map K (List AffectedBy) → Prop :=
  Relation.ReflTransGen RelationMark

lemma lookup_insertMark (ms : Map K (List AffectedBy)) (key o : K) (reason : AffectedBy) :
    (insertMark ms key reason).lookup o =
      if o = key then some (insert reason ((ms.lookup key).getD []))
      else ms.lookup o := by
  unfold insertMark
  rw [Map.lookup_insert_eq]

lemma isSome_lookup_insertMark {key o : K} (h : (ms.lookup o).isSome) :
    ((insertMark ms key reason).lookup o).isSome := by
  rw [lookup_insertMark]
  split_ifs
  · rfl
  · exact h

def directlyMarked (marks : Map K (List AffectedBy)) (key : K) : Bool :=
  (marks.lookup key).any (fun reasons => reasons.any AffectedBy.isDirect)

lemma directlyMarked_insertMark (ms : Map K (List AffectedBy)) (key o : K) (reason : AffectedBy) :
    directlyMarked (insertMark ms key reason) o =
      (directlyMarked ms o || (decide (o = key) && reason.isDirect)) := by
  unfold directlyMarked
  rw [lookup_insertMark]
  by_cases hk : o = key
  · subst hk
    have hi (l : List AffectedBy) : (insert reason l).any AffectedBy.isDirect =
        (l.any AffectedBy.isDirect || reason.isDirect) := by
      rw [Bool.eq_iff_iff]
      simp only [any_eq_true, Bool.or_eq_true]
      constructor
      · rintro ⟨mark, hm, hd⟩
        rcases mem_insert_iff.mp hm with rfl | ho
        · exact .inr hd
        · exact .inl ⟨mark, ho, hd⟩
      · rintro (⟨mark, hm, hd⟩ | hd)
        · exact ⟨mark, mem_insert_of_mem hm, hd⟩
        · exact ⟨reason, mem_insert_self, hd⟩
    cases ms.lookup o <;> simp [hi]
  · simp [hk]

lemma RelationMarks.isSome_lookup {ms' : Map K (List AffectedBy)}
    (h : RelationMarks ms ms') {key : K} (hk : (ms.lookup key).isSome) :
    (ms'.lookup key).isSome := by
  induction h with
  | refl => exact hk
  | tail _ hs ih =>
    obtain ⟨o, reason, -, rfl⟩ := hs
    exact isSome_lookup_insertMark ih

lemma RelationMarks.directlyMarked_eq {ms' : Map K (List AffectedBy)}
    (h : RelationMarks ms ms') (key : K) : directlyMarked ms' key = directlyMarked ms key := by
  induction h with
  | refl => rfl
  | tail _ hs ih =>
    obtain ⟨o, reason, hr, rfl⟩ := hs
    rw [directlyMarked_insertMark, hr, ih]
    simp

lemma markRelations_spec {d : K → Map K (List AffectedBy) → Finset K →
      Except String (Map K (List AffectedBy) × Finset K)} {di : Bool}
    (hrs : reason.isDirect = false) (hd : ∀ key ms cy r, d key ms cy = .ok r → RelationMarks ms r.1)
    {keys : List K} {cy : Finset K} {r : Map K (List AffectedBy) × Finset K}
    (h : markRelations d reason di keys ms cy = .ok r) : RelationMarks ms r.1 := by
  induction keys generalizing ms cy with
  | nil =>
    cases h
    exact .refl
  | cons re rest ih =>
    have hm : RelationMarks ms (insertMark ms re reason) := .single ⟨re, reason, hrs, rfl⟩
    unfold markRelations at h
    cases di with
    | true => exact hm.trans (ih h)
    | false =>
      obtain ⟨⟨ms', cycle'⟩, hr, h⟩ := bind_eq_ok h
      exact (hm.trans (hd _ _ _ _ hr)).trans (ih h)

lemma trackRelations_spec {key : N → K} {load : K → Except String N} {rs : N → List K}
    {reason : K → AffectedBy} {i isDirect : Bool} (hrs : ∀ k, (reason k).isDirect = false) {n : Nat}
    {d : UInt16} {x : N} {cy : Finset K} {r : Map K (List AffectedBy) × Finset K}
    (h : trackRelations key load rs reason i isDirect n d x ms cy = .ok r) :
    RelationMarks ms r.1 := by
  induction n generalizing d x ms cy r with
  | zero =>
    cases h
    exact .refl
  | succ n ih =>
    unfold trackRelations at h
    split_ifs at h
    · cases h
      exact .refl
    · cases h
      exact .refl
    · refine markRelations_spec (hrs _) ?_ h
      intro related ms cy r hr
      obtain ⟨x, -, hr⟩ := bind_eq_ok hr
      exact ih hr

end

section

open AffectedMarks

variable {c : AffectedTrackerConfig} {ms ms' : AffectedMarks} {k o : Task}

lemma isTaskMarkedIgnoringRelations_eq (ms : AffectedMarks) (k : Task) :
    ms.isTaskMarkedIgnoringRelations k = directlyMarked ms.tasks k.target := rfl

lemma isTaskAffected_eq (c : AffectedTrackerConfig) (ms : AffectedMarks) (k : Task) :
    isTaskAffected c ms k =
      if directlyMarked ms.tasks k.target then .ok (some .alreadyMarked)
      else isTaskAffected c {} k := by
  unfold isTaskAffected
  rw [isTaskMarkedIgnoringRelations_eq, isTaskMarkedIgnoringRelations_eq]
  have hem : directlyMarked ({} : AffectedMarks).tasks k.target = false := by
    simp [directlyMarked]
  rw [hem]
  simp

lemma isDirect_of_isTaskAffected (h : isTaskAffected c {} k = .ok (some reason)) :
    reason.isDirect := by
  unfold isTaskAffected at h
  rw [isTaskMarkedIgnoringRelations_eq] at h
  simp only [directlyMarked, Finmap.lookup_empty, Option.any_none, Bool.false_eq_true,
    if_false] at h
  split at h
  · cases h
    rfl
  all_goals try cases h
  obtain ⟨i, -, h⟩ := bind_eq_ok h
  cases i with
  | none => cases h
  | some i =>
    cases h
    cases i <;> rfl

lemma trackTaskDependencies_spec (h : trackTaskDependencies c k ms = .ok ms') :
    RelationMarks ms.tasks ms'.tasks := by
  obtain ⟨⟨ts, cycle⟩, ht, h⟩ := bind_eq_ok h
  cases h
  exact trackRelations_spec (fun _ => rfl) ht

lemma trackTaskDependents_spec (h : trackTaskDependents c k ms = .ok ms') :
    RelationMarks ms.tasks ms'.tasks := by
  obtain ⟨⟨ts, cycle⟩, ht, h⟩ := bind_eq_ok h
  cases h
  exact trackRelations_spec (fun _ => rfl) ht

/-- A check that finds a task affected marks it, if it is not marked yet, and walks over its
relations. -/
lemma affectTask_spec (h : affectTask c ms k = .ok (some ms')) :
    (directlyMarked ms.tasks k.target ∧ RelationMarks ms.tasks ms'.tasks) ∨
    ∃ reason, reason.isDirect ∧ isTaskAffected c {} k = .ok (some reason) ∧
      RelationMarks (insertMark ms.tasks k.target reason) ms'.tasks := by
  obtain ⟨f, hf, h⟩ := bind_eq_ok h
  cases f with
  | none => cases h
  | some reason =>
    obtain ⟨marked, hm, h⟩ := bind_eq_ok h
    cases h
    rw [isTaskAffected_eq] at hf
    unfold markTaskAffected at hm
    by_cases hd : directlyMarked ms.tasks k.target
    · rw [if_pos hd] at hf
      cases hf
      rw [if_pos rfl] at hm
      obtain ⟨ma, hm₁, hm⟩ := bind_eq_ok hm
      exact .inl ⟨hd, (trackTaskDependencies_spec hm₁).trans (trackTaskDependents_spec hm)⟩
    · rw [if_neg hd] at hf
      have hr := isDirect_of_isTaskAffected hf
      rw [if_neg (by rintro rfl; cases hr)] at hm
      obtain ⟨ma, hm₁, hm⟩ := bind_eq_ok hm
      obtain ⟨m, hm₂, hm⟩ := bind_eq_ok hm
      cases hm
      have hp : (markTaskProject k m).tasks = m.tasks := by
        unfold markTaskProject
        split <;> rfl
      refine .inr ⟨reason, hr, hf, ?_⟩
      rw [hp]
      exact (trackTaskDependencies_spec hm₁).trans (trackTaskDependents_spec hm₂)

lemma affectTask_eq_none (h : affectTask c ms k = .ok none) : isTaskAffected c ms k = .ok none := by
  obtain ⟨f, hf, h⟩ := bind_eq_ok h
  cases f with
  | none => exact hf
  | some reason =>
    obtain ⟨marked, -, h⟩ := bind_eq_ok h
    cases h

lemma affectProject_tasks {p : Project} (h : affectProject c ms p = .ok (some ms')) :
    ms'.tasks = ms.tasks := by
  unfold affectProject at h
  split at h
  case h_2 => cases h
  case h_1 affected _ =>
    obtain ⟨marked, hm, h⟩ := bind_eq_ok h
    cases h
    obtain ⟨marks₁, hm₁, hm⟩ := bind_eq_ok hm
    obtain ⟨walk₁, -, hm₁⟩ := bind_eq_ok hm₁
    obtain ⟨walk₂, -, hm⟩ := bind_eq_ok hm
    cases hm₁
    cases hm
    dsimp only
    split_ifs <;> rfl

def directlyAffected (config : AffectedTrackerConfig) (marks : AffectedMarks) (task : Task) :
    Bool :=
  match isTaskAffected config marks task with
  | .ok (some _) => true
  | _ => false

lemma directlyAffected_eq (c : AffectedTrackerConfig) (ms : AffectedMarks)
    (k : Task) : directlyAffected c ms k =
      (directlyMarked ms.tasks k.target || directlyAffected c {} k) := by
  unfold directlyAffected
  rw [isTaskAffected_eq c ms k]
  by_cases hd : directlyMarked ms.tasks k.target
  · simp [hd]
  · simp [hd]

lemma affectTask_directlyAffected (h : affectTask c ms k = .ok (some ms'))
    (hs : o.target = k.target → o = k) : directlyAffected c ms' o = directlyAffected c ms o := by
  rw [directlyAffected_eq, directlyAffected_eq c ms]
  rcases affectTask_spec h with ⟨-, hm⟩ | ⟨reason, -, hf, hm⟩
  · rw [hm.directlyMarked_eq]
  · rw [hm.directlyMarked_eq, directlyMarked_insertMark]
    by_cases ht : o.target = k.target
    · have ho : directlyAffected c {} o := by
        rw [hs ht]
        unfold directlyAffected
        rw [hf]
      simp [ho]
    · simp [ht]

variable {ts : List Task}

lemma trackTasksByInstance_directlyAffected (h : trackTasksByInstance c ms ts = .ok ms')
    (hs : ∀ k ∈ ts, o.target = k.target → o = k) :
    directlyAffected c ms' o = directlyAffected c ms o := by
  induction ts generalizing ms with
  | nil =>
    cases h
    rfl
  | cons k ts ih =>
    obtain ⟨f, hf, h⟩ := bind_eq_ok h
    have hr (o : Task) (ho : o ∈ ts) := hs o (mem_cons_of_mem _ ho)
    cases f with
    | none => exact ih h hr
    | some marks₁ =>
      rw [ih h hr]
      exact affectTask_directlyAffected hf (hs k mem_cons_self)

lemma trackTasksByInstance_isSome (h : trackTasksByInstance c ms ts = .ok ms')
    {t : Target} (ht : (ms.tasks.lookup t).isSome) : (ms'.tasks.lookup t).isSome := by
  induction ts generalizing ms with
  | nil =>
    cases h
    exact ht
  | cons k ts ih =>
    obtain ⟨f, hf, h⟩ := bind_eq_ok h
    cases f with
    | none => exact ih h ht
    | some marks₁ =>
      refine ih h ?_
      rcases affectTask_spec hf with ⟨-, hm⟩ | ⟨reason, -, -, hm⟩
      · exact hm.isSome_lookup ht
      · exact hm.isSome_lookup (isSome_lookup_insertMark ht)

lemma trackTasksByInstance_spec (h : trackTasksByInstance c ms ts = .ok ms') (ht : k ∈ ts) :
    ms'.isTaskMarked k ∨ isTaskAffected c {} k = .ok none := by
  induction ts generalizing ms with
  | nil => cases ht
  | cons first ts ih =>
    obtain ⟨f, hf, h⟩ := bind_eq_ok h
    rcases mem_cons.mp ht with rfl | hr
    · cases f with
      | none =>
        have hn := affectTask_eq_none hf
        rw [isTaskAffected_eq] at hn
        split_ifs at hn
        · cases hn
        · exact .inr hn
      | some m =>
        refine .inl (trackTasksByInstance_isSome h ?_)
        rcases affectTask_spec hf with ⟨hd, hm⟩ | ⟨reason, -, -, hm⟩
        · apply hm.isSome_lookup
          unfold directlyMarked at hd
          cases hl : ms.tasks.lookup k.target with
          | none => simp [hl] at hd
          | some _ => rfl
        · apply hm.isSome_lookup
          rw [lookup_insertMark, if_pos rfl]
          rfl
    · cases f with
      | none => exact ih h hr
      | some m => exact ih h hr

lemma trackTasks_spec (h : trackTasks c ms = .ok ms') (hk : c.workspace.getTask k.target = .ok k) :
    ms'.isTaskMarked k ∨ isTaskAffected c ms' k = .ok none := by
  obtain ⟨ts, hts, h⟩ := bind_eq_ok h
  have ht : k.target ∈ c.workspace.tasks.map (·.target) := mem_map_of_mem (getTask_eq_ok hk).1
  obtain ⟨loaded, hl, hme⟩ := mapM_eq_ok_mem hts ht
  rw [hk] at hl
  cases hl
  rcases trackTasksByInstance_spec h hme with hm | hn
  · exact .inl hm
  · cases hm : ms'.isTaskMarked k with
    | true => exact .inl rfl
    | false =>
      refine .inr ?_
      rw [isTaskAffected_eq, hn]
      unfold isTaskMarked at hm
      simp only [Option.isSome_eq_false_iff, Option.isNone_iff_eq_none] at hm
      simp [directlyMarked, hm]

end

end Moon.Proofs
