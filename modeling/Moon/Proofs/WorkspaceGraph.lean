import Moon.Lib.Except
import Moon.WorkspaceGraph

/-! # Looking up tasks -/

namespace Moon.Proofs

open Moon.Lib List WorkspaceGraph

variable {b a : Bool} {allQuery : Option String}

variable {g : WorkspaceGraph} {t : Task} {target : Target}

lemma getTask_eq_ok (h : g.getTask target = .ok t) : t ∈ g.tasks ∧ t.target = target := by
  unfold getTask at h
  cases hf : g.tasks.find? (fun t => t.target == target) with
  | none => simp [hf] at h
  | some f =>
    have ht := find?_some hf
    simp only [hf] at h
    split_ifs at h
    cases h
    exact ⟨mem_of_find?_eq_some hf, by simpa using ht⟩

lemma getTask_known (h : g.getTask target = .ok t) : g.getTask t.target = .ok t := by
  rw [(getTask_eq_ok h).2]
  exact h

variable {p : Project}

lemma getProject_mem {id : String} (h : g.getProject id = .ok p) : p ∈ g.projects := by
  unfold getProject at h
  cases hf : g.projects.find? (fun p => p.id == g.resolveId id) with
  | none => simp [hf] at h
  | some f =>
    simp only [hf] at h
    cases h
    exact mem_of_find?_eq_some hf

variable {ts : List Task}

lemma projectTasks_known {scope : TargetTaskScope}
    (h : g.projectTasks b scope p = .ok ts) (ht : t ∈ ts) : g.getTask t.target = .ok t := by
  cases scope with
  | id taskId =>
    simp only [projectTasks] at h
    cases hg : g.getTaskFromProject p.id taskId with
    | ok f =>
      rw [hg] at h
      cases h
      rw [mem_singleton.mp ht]
      exact getTask_known hg
    | error error =>
      rw [hg] at h
      cases b <;> cases h
      cases ht
  | tag tag =>
    obtain ⟨f, hf, h⟩ := bind_eq_ok h
    cases h
    obtain ⟨all, ha, hf⟩ := bind_eq_ok hf
    cases hf
    obtain ⟨target, -, hg⟩ := mem_of_mapM_eq_ok ha (mem_of_mem_filter (mem_of_mem_filter ht))
    exact getTask_known hg

lemma withoutInternal_subset {r : List Task} (h : withoutInternal b p ts = .ok r) : r ⊆ ts := by
  induction ts generalizing r with
  | nil =>
    cases h
    exact List.Subset.refl _
  | cons t ts ih =>
    unfold withoutInternal at h
    split_ifs at h
    · exact subset_cons_of_subset _ (ih h)
    · obtain ⟨others, ho, h⟩ := bind_eq_ok h
      cases h
      exact cons_subset_cons _ (ih ho)

lemma resolveTasksFromTarget_known (h : g.resolveTasksFromTarget allQuery target a = .ok ts)
    (ht : t ∈ ts) : g.getTask t.target = .ok t := by
  obtain ⟨⟨projects, b⟩, -, hr⟩ := bind_eq_ok h
  obtain ⟨lists, hl, hr⟩ := bind_eq_ok hr
  cases hr
  obtain ⟨list, hls, ht⟩ := mem_flatten.mp ht
  obtain ⟨p, -, hp⟩ := mem_of_mapM_eq_ok hl hls
  obtain ⟨f, hf, hp⟩ := bind_eq_ok hp
  cases a with
  | true =>
    cases hp
    exact projectTasks_known hf ht
  | false => exact projectTasks_known hf (withoutInternal_subset hp ht)

lemma locator_known {l : TargetLocator} (h : g.resolveTasksFromTargetLocator allQuery l a = .ok ts)
    (ht : t ∈ ts) : g.getTask t.target = .ok t := by
  have hq {q : String} {ts : List Task}
      (h : (do return (← g.queryTasks q).filter (fun t =>
        a || !t.isInternal)) = Except.ok ts) (ht : t ∈ ts) :
      g.getTask t.target = .ok t := by
    obtain ⟨f, hf, h⟩ := bind_eq_ok h
    cases h
    obtain ⟨targets, -, hf⟩ := bind_eq_ok hf
    obtain ⟨target, -, hg⟩ := mem_of_mapM_eq_ok hf (mem_of_mem_filter ht)
    exact getTask_known hg
  unfold resolveTasksFromTargetLocator at h
  split at h
  · obtain ⟨projects, -, h⟩ := bind_eq_ok h
    split_ifs at h
    · cases h
      cases ht
    · exact hq h ht
  · exact hq h ht
  · cases h
    cases ht
  · obtain ⟨target, -, h⟩ := bind_eq_ok h
    exact resolveTasksFromTarget_known h ht
  · split at h
    · exact resolveTasksFromTarget_known h ht
    · cases h

end Moon.Proofs
