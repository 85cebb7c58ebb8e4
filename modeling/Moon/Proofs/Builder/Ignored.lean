import Moon.AffectedTracker
import Moon.Proofs.Builder.Calls

/-! # Ignored dependencies -/

namespace Moon.Proofs.Builder

open Moon.Lib ActionGraphBuilder List

variable {A : Type} {env : BuilderEnv A} {cs : List BuilderCall}

def VisitedBy (env : BuilderEnv A) (calls : List BuilderCall) (visit : TaskVisit) : Prop :=
  ∃ call ∈ calls, ∃ request ∈ call.requests env, Visited env request visit

lemma VisitedBy.dependency {x dep : TaskVisit}
    (h : VisitedBy env cs x) (hrn : x.isPassthrough = false)
    (hs : x.shouldRunDependencies) (hd : dep ∈ dependencyVisits env x) : VisitedBy env cs dep := by
  obtain ⟨c, hc, r, hr, hvisited⟩ := h
  exact ⟨c, hc, r, hr, .dependency hvisited hrn hs hd⟩

lemma VisitedBy.dependent {x dep : TaskVisit} (h : VisitedBy env cs x) (hs : x.shouldRunDependents)
    (hd : dep ∈ dependentVisits env x) : VisitedBy env cs dep := by
  obtain ⟨c, hc, r, hr, hvisited⟩ := h
  exact ⟨c, hc, r, hr, .dependent hvisited hs hd⟩

/-- If the dependencies of a target are visited in scope and out of scope, then always for the
same node. -/
def Uniform (env : BuilderEnv A) (calls : List BuilderCall) (target : Target) : Prop :=
  ∀ x y, VisitedBy env calls x → VisitedBy env calls y → x.task.target = target →
    y.task.target = target → x.task.deps ≠ [] → x.shouldRunDependencies = true →
    y.shouldRunDependencies = false → x.node env.fxHash = y.node env.fxHash

/-- Every dependency of the task resolves, to tasks that the node requires or that are passed
through. -/
def DependenciesLinked (env : BuilderEnv A) (task : Task) (b : ActionGraphBuilder A)
    (n : RunTaskNode) : Prop :=
  ∀ dep ∈ task.deps, Resolves env dep.target ∧ ∀ depTask ∈ resolved env dep.target,
    (∃ m, m.target = depTask.target ∧ HasRequirement b n m) ∨ depTask.target ∈ b.passthroughTargets

/-- What the builder has noted of a task agrees with its edges. -/
structure Bookkept (env : BuilderEnv A) (calls : List BuilderCall) (task : Task)
    (pending : RunTaskNode → Prop) (b : ActionGraphBuilder A) : Prop where
  covered : ∀ n, n.target = task.target → HasNode b n → pending n ∨
    DependenciesLinked env task b n ∨
    b.ignoredDependencies.lookup task.target = some (task.deps.map (·.target))
  record : (b.ignoredDependencies.lookup task.target).isSome = true → task.deps ≠ [] ∧
    b.ignoredDependencies.lookup task.target = some (task.deps.map (·.target)) ∧
    ∃ y, VisitedBy env calls y ∧ y.task = task ∧ y.shouldRunDependencies = false
  ignored : (b.ignoredDependencies.lookup task.target).isSome = true →
    ∀ n m, n.target = task.target → ¬ HasRequirement b n m
  nodes : ∀ n, n.target = task.target → HasNode b n →
    ∃ x, VisitedBy env calls x ∧ x.task = task ∧ n = x.node env.fxHash
  requirements : ∀ n m, n.target = task.target → HasRequirement b n m →
    ∃ x, VisitedBy env calls x ∧ x.task = task ∧ x.shouldRunDependencies = true ∧
      n = x.node env.fxHash
  expanding : ∀ n, pending n → n.target = task.target →
    b.ignoredDependencies.lookup task.target = none ∧ HasNode b n ∧
      ∃ x, VisitedBy env calls x ∧ x.task = task ∧ x.shouldRunDependencies = true ∧
        n = x.node env.fxHash

section

variable {t : Task}
  {p : RunTaskNode → Prop} {b b' : ActionGraphBuilder A} {x : TaskVisit} {n : RunTaskNode}

lemma DependenciesLinked.mono (h : DependenciesLinked env t b n)
    (hr : ∀ m, HasRequirement b n m → HasRequirement b' n m)
    (hp : b.passthroughTargets ⊆ b'.passthroughTargets) : DependenciesLinked env t b' n := by
  intro dep hd
  obtain ⟨hrv, hts⟩ := h dep hd
  refine ⟨hrv, fun d hdt => ?_⟩
  apply (hts d hdt).imp _ (fun ht => hp ht)
  rintro ⟨m, hm, hn⟩
  exact ⟨m, hm, hr m hn⟩

lemma HasRequirement.hasNode {m : RunTaskNode} (h : HasRequirement b n m) : HasNode b n := by
  obtain ⟨i, -, hi, -⟩ := h
  exact hi.hasNode

lemma Bookkept.congr (h : Bookkept env cs t p b)
    (hnd : ∀ n, n.target = t.target → (HasNode b' n ↔ HasNode b n))
    (hr : ∀ n m, n.target = t.target → (HasRequirement b' n m ↔ HasRequirement b n m))
    (hps : b.passthroughTargets ⊆ b'.passthroughTargets)
    (hl : b'.ignoredDependencies.lookup t.target = b.ignoredDependencies.lookup t.target) :
    Bookkept env cs t p b' := by
  constructor
  · intro n hn hm
    rw [hl]
    apply (h.covered n hn ((hnd n hn).mp hm)).imp id
    intro hlkd
    exact hlkd.imp (fun hn' => hn'.mono (fun m => (hr n m hn).mpr) hps) id
  · rw [hl]
    exact h.record
  · rw [hl]
    intro hrc n m hn hnm
    exact h.ignored hrc n m hn ((hr n m hn).mp hnm)
  · intro n hn hm
    exact h.nodes n hn ((hnd n hn).mp hm)
  · intro n m hn hnm
    exact h.requirements n m hn ((hr n m hn).mp hnm)
  · intro n hp hn
    obtain ⟨hno, hm, hv⟩ := h.expanding n hp hn
    exact ⟨hl.trans hno, (hnd n hn).mpr hm, hv⟩

section

variable (h : Bookkept env cs t p b) (huniform : Uniform env cs t.target)
  (hvisited : VisitedBy env cs x) (htask : x.task = t)
include h huniform hvisited htask

lemma Bookkept.eq_node (hsc : x.shouldRunDependencies)
    (hr : (b.ignoredDependencies.lookup t.target).isSome)
    (hn : n.target = t.target) (hm : HasNode b n) : n = x.node env.fxHash := by
  obtain ⟨hd, -, y, hy, hyT, hyS⟩ := h.record hr
  obtain ⟨z, hz, hzT, rfl⟩ := h.nodes n hn hm
  have hs (w v : TaskVisit) (hw : VisitedBy env cs w) (hv : VisitedBy env cs v)
      (hwT : w.task = t) (hvT : v.task = t)
      (hwS : w.shouldRunDependencies) (hvS : v.shouldRunDependencies = false) :
      w.node env.fxHash = v.node env.fxHash :=
    huniform w v hw hv (by rw [hwT]) (by rw [hvT]) (by rw [hwT]; exact hd) hwS hvS
  by_cases hzS : z.shouldRunDependencies
  · rw [hs z y hz hy hzT hyT hzS hyS, hs x y hvisited hy htask hyT hsc hyS]
  · exact (hs x z hvisited hz htask hzT hsc (by simpa using hzS)).symm

lemma Bookkept.expand (hs : x.shouldRunDependencies)
    (hnd : ∀ n, HasNode b' n ↔ HasNode b n ∨ n = x.node env.fxHash)
    (hrq : ∀ n m, HasRequirement b' n m ↔ HasRequirement b n m)
    (hps : b.passthroughTargets ⊆ b'.passthroughTargets)
    (hl : b'.ignoredDependencies.lookup t.target = none) :
    Bookkept env cs t (fun n => p n ∨ n = x.node env.fxHash) b' := by
  constructor
  · intro n hn hm
    rcases (hnd n).mp hm with ho | hnw
    · by_cases hr : (b.ignoredDependencies.lookup t.target).isSome
      · exact .inl (.inr (h.eq_node huniform hvisited htask hs hr hn ho))
      · rcases h.covered n hn ho with hp | hlkd | hi
        · exact .inl (.inl hp)
        · exact .inr (.inl (hlkd.mono (fun m => (hrq n m).mpr) hps))
        · simp [hi] at hr
    · exact .inl (.inr hnw)
  · simp [hl]
  · simp [hl]
  · intro n hn hm
    rcases (hnd n).mp hm with ho | rfl
    · exact h.nodes n hn ho
    · exact ⟨x, hvisited, htask, rfl⟩
  · intro n m hn hnm
    exact h.requirements n m hn ((hrq n m).mp hnm)
  · rintro n (hp | rfl) hn
    · obtain ⟨-, hm, hv⟩ := h.expanding n hp hn
      exact ⟨hl, (hnd n).mpr (.inl hm), hv⟩
    · exact ⟨hl, (hnd _).mpr (.inr rfl), x, hvisited, htask, hs, rfl⟩

lemma Bookkept.ignore (hs : x.shouldRunDependencies = false) (hnw : ¬ HasNode b (x.node env.fxHash))
    (hnd : ∀ n, HasNode b' n ↔ HasNode b n ∨ n = x.node env.fxHash)
    (hrq : ∀ n m, HasRequirement b' n m ↔ HasRequirement b n m)
    (hl : b'.ignoredDependencies.lookup t.target =
      if t.deps = [] then b.ignoredDependencies.lookup t.target
      else some (t.deps.map (·.target))) : Bookkept env cs t p b' := by
  have hnds (n : RunTaskNode) (hn : n.target = t.target) (hm : HasNode b' n) :
      ∃ z, VisitedBy env cs z ∧ z.task = t ∧ n = z.node env.fxHash := by
    rcases (hnd n).mp hm with ho | rfl
    · exact h.nodes n hn ho
    · exact ⟨x, hvisited, htask, rfl⟩
  have hrqr (n m : RunTaskNode) (hn : n.target = t.target)
      (hnm : HasRequirement b' n m) := h.requirements n m hn ((hrq n m).mp hnm)
  by_cases hd : t.deps = []
  · rw [if_pos hd] at hl
    have hno : ¬ (b.ignoredDependencies.lookup t.target).isSome :=
      fun hr => (h.record hr).1 hd
    constructor
    · intro n _ _
      refine .inr (.inl ?_)
      unfold DependenciesLinked
      simp [hd]
    · rw [hl]
      exact fun hr => absurd hr hno
    · rw [hl]
      exact fun hr => absurd hr hno
    · exact hnds
    · exact hrqr
    · intro n hp hn
      obtain ⟨hn', hm, hv⟩ := h.expanding n hp hn
      exact ⟨hl.trans hn', (hnd n).mpr (.inl hm), hv⟩
  · rw [if_neg hd] at hl
    -- an expanded node would be the new one
    have hex (z : TaskVisit) (hz : VisitedBy env cs z) (hzT : z.task = t)
        (hzS : z.shouldRunDependencies) : ¬ HasNode b (z.node env.fxHash) := by
      rw [huniform z x hz hvisited (by rw [hzT]) (by rw [htask]) (by rw [hzT]; exact hd) hzS hs]
      exact hnw
    constructor
    · exact fun n _ _ => .inr (.inr hl)
    · exact fun _ => ⟨hd, hl, x, hvisited, htask, hs⟩
    · intro _ n m hn hnm
      have ho := (hrq n m).mp hnm
      obtain ⟨z, hz, hzT, hzS, rfl⟩ := h.requirements n m hn ho
      exact hex z hz hzT hzS ho.hasNode
    · exact hnds
    · exact hrqr
    · intro n hp hn
      obtain ⟨-, hm, z, hz, hzT, hzS, rfl⟩ := h.expanding n hp hn
      exact absurd hm (hex z hz hzT hzS)

end

lemma Bookkept.link {ts : RunTaskNode → Prop} (hvisited : VisitedBy env cs x)
    (hs : x.shouldRunDependencies) (htask : x.task.target = t.target → x.task = t)
    (h : Bookkept env cs t (fun n => p n ∨ n = x.node env.fxHash) b)
    (ht : ∀ dep ∈ dependencyVisits env x, ts (dep.node env.fxHash) ∨
      dep.task.target ∈ b.passthroughTargets) (hrv : ∀ dep ∈ x.task.deps, Resolves env dep.target)
    (hl : Links b (x.node env.fxHash) ts b') : Bookkept env cs t p b' := by
  have hrs : b'.passthroughTargets = b.passthroughTargets ∧
      b'.ignoredDependencies = b.ignoredDependencies := by
    rw [hl.rest]
    exact ⟨rfl, rfl⟩
  have hnd (n : RunTaskNode) : HasNode b' n ↔ HasNode b n := by
    unfold HasNode
    rw [hl.nodes]
  have hmn {n : RunTaskNode} (hn : DependenciesLinked env t b n) :
      DependenciesLinked env t b' n := by
    apply hn.mono (fun m hm => (hl.hasRequirement n m).mpr (.inl hm))
    rw [hrs.1]
    exact List.Subset.refl _
  constructor
  · intro n hn hme
    rw [hrs.2]
    rcases h.covered n hn ((hnd n).mp hme) with (hp | rfl) | hlk | hi
    · exact .inl hp
    · refine .inr (.inl ?_)
      have hx := htask hn
      intro dep hd
      rw [← hx] at hd
      refine ⟨hrv dep hd, fun d hdt => ?_⟩
      have hv : x.dependency dep d ∈ dependencyVisits env x :=
        mem_flatMap.mpr ⟨dep, hd, mem_map_of_mem hdt⟩
      rcases ht _ hv with htg | hps
      · exact .inl ⟨_, rfl, (hl.hasRequirement _ _).mpr (.inr ⟨rfl, htg⟩)⟩
      · rw [hrs.1]
        exact .inr hps
    · exact .inr (.inl (hmn hlk))
    · exact .inr (.inr hi)
  · rw [hrs.2]
    exact h.record
  · rw [hrs.2]
    intro hr n m hn hnm
    rcases (hl.hasRequirement n m).mp hnm with ho | ⟨rfl, -⟩
    · exact h.ignored hr n m hn ho
    · rw [(h.expanding _ (.inr rfl) hn).1] at hr
      cases hr
  · intro n hn hme
    exact h.nodes n hn ((hnd n).mp hme)
  · intro n m hn hnm
    rcases (hl.hasRequirement n m).mp hnm with ho | ⟨rfl, -⟩
    · exact h.requirements n m hn ho
    · exact ⟨x, hvisited, htask hn, hs, rfl⟩
  · intro n hp hn
    rw [hrs.2]
    obtain ⟨hno, hme, hv⟩ := h.expanding n (.inl hp) hn
    exact ⟨hno, (hnd n).mpr hme, hv⟩

lemma lookup_takeRecords_ne (ht : x.task.target ≠ t.target) :
    (takeRecords x b).ignoredDependencies.lookup t.target =
      b.ignoredDependencies.lookup t.target := by
  unfold takeRecords
  by_cases hs : x.shouldRunDependencies
  · simp only [hs, if_true]
    exact Finmap.lookup_erase_ne (Ne.symm ht)
  · simp [hs]

lemma lookup_takeRecords_self (htask : x.task = t) (hs : x.shouldRunDependencies) :
    (takeRecords x b).ignoredDependencies.lookup t.target = none := by
  simp [takeRecords, hs, htask]

lemma lookup_takeRecords_outOfScope (hs : x.shouldRunDependencies = false) :
    (takeRecords x b).ignoredDependencies.lookup t.target =
      b.ignoredDependencies.lookup t.target := by
  simp [takeRecords, hs]

structure IgnoreState (env : BuilderEnv A) (calls : List BuilderCall) (task : Task)
    (pending : RunTaskNode → Prop) (x : TaskVisit) (b : ActionGraphBuilder A) : Prop where
  visited : VisitedBy env calls x
  known : Known env x.task
  books : Bookkept env calls task pending b

lemma Bookkept.pending_other (h : Bookkept env cs t p b) (ht : x.task.target ≠ t.target) :
    Bookkept env cs t (fun n => p n ∨ n = x.node env.fxHash) b := by
  have hp (n : RunTaskNode) (hn : n.target = t.target) : p n ∨ n = x.node env.fxHash ↔ p n := by
    apply or_iff_left
    rintro rfl
    exact ht hn
  exact { h with
    covered := fun n hn hm => (h.covered n hn hm).imp (hp n hn).mpr id
    expanding := fun n hn ht => h.expanding n ((hp n ht).mp hn) ht }

section

variable (h : Bookkept env cs t p b) (htask : Known env t)
  (huniform : Uniform env cs t.target) (hvisited : VisitedBy env cs x)
  (hknown : Known env x.task)
include h htask huniform hvisited hknown

lemma Bookkept.revisit (hm : HasNode b (x.node env.fxHash)) :
    if hadIgnoredDependencies x b then
      Bookkept env cs t (fun n => p n ∨ n = x.node env.fxHash) (takeRecords x b)
    else Bookkept env cs t p (takeRecords x b) := by
  have hsm (hl : (takeRecords x b).ignoredDependencies.lookup t.target =
      b.ignoredDependencies.lookup t.target) :
      Bookkept env cs t p (takeRecords x b) :=
    h.congr (fun _ _ => Iff.rfl) (fun _ _ _ => Iff.rfl) (List.Subset.refl _) hl
  by_cases ht : x.task.target = t.target
  · have hx := task_eq_of_target hknown htask ht
    cases hh : hadIgnoredDependencies x b with
    | true =>
      have hs := (Bool.and_eq_true_iff.mp hh).1
      have hn (n : RunTaskNode) : HasNode (takeRecords x b) n ↔
          HasNode b n ∨ n = x.node env.fxHash := by
        refine (or_iff_left_of_imp ?_).symm
        rintro rfl
        exact hm
      exact h.expand huniform hvisited hx hs hn (fun _ _ => Iff.rfl)
        (List.Subset.refl _) (lookup_takeRecords_self hx hs)
    | false =>
      apply hsm
      by_cases hs : x.shouldRunDependencies
      · rw [lookup_takeRecords_self hx hs]
        unfold hadIgnoredDependencies at hh
        rw [hs, ht, Bool.true_and] at hh
        exact (Option.not_isSome_iff_eq_none.mp (by simp [hh])).symm
      · exact lookup_takeRecords_outOfScope (by simpa using hs)
  · have hb := hsm (lookup_takeRecords_ne ht)
    cases hadIgnoredDependencies x b with
    | true => exact hb.pending_other ht
    | false => exact hb

lemma Bookkept.insertInScope (hs : x.shouldRunDependencies)
    (hw' : WellFormed env b') (hf : SetupFrame env (takeRecords x b) b') :
    Bookkept env cs t (fun n => p n ∨ n = x.node env.fxHash) (addTask (x.node env.fxHash) b') := by
  have hnd (n : RunTaskNode) : HasNode (addTask (x.node env.fxHash) b') n ↔
      HasNode b n ∨ n = x.node env.fxHash := by
    rw [hasNode_addTask, hf.hasNode_iff]
    exact Iff.rfl
  have hr (n m : RunTaskNode) : HasRequirement (addTask (x.node env.fxHash) b') n m ↔
      HasRequirement b n m := by
    rw [hw'.hasRequirement_addTask, hf.hasRequirement_iff]
    exact Iff.rfl
  have hl : (addTask (x.node env.fxHash) b').ignoredDependencies.lookup t.target =
      (takeRecords x b).ignoredDependencies.lookup t.target := by
    change b'.ignoredDependencies.lookup t.target = _
    rw [hf.rest]
  by_cases ht : x.task.target = t.target
  · have hx := task_eq_of_target hknown htask ht
    exact h.expand huniform hvisited hx hs hnd hr hf.grows.passthrough
      (hl.trans (lookup_takeRecords_self hx hs))
  · refine Bookkept.pending_other (h.congr ?_ (fun n m _ => hr n m) hf.grows.passthrough
      (hl.trans (lookup_takeRecords_ne ht))) ht
    intro n hn
    rw [hnd]
    apply or_iff_left
    rintro rfl
    exact ht hn

end

lemma Bookkept.insertOutOfScope {b'' : ActionGraphBuilder A}
    (h : Bookkept env cs t p b) (htask : Known env t)
    (huniform : Uniform env cs t.target) (hvisited : VisitedBy env cs x)
    (hknown : Known env x.task) (hs : x.shouldRunDependencies = false)
    (hnw : ¬ HasNode b (x.node env.fxHash)) (hw' : WellFormed env b')
    (hf : SetupFrame env (takeRecords x b) b')
    (hl : Links (ignoreDependencies x (addTask (x.node env.fxHash) b'))
      (x.node env.fxHash) (fun _ => False) b'') : Bookkept env cs t p b'' := by
  have hnd (n : RunTaskNode) : HasNode b'' n ↔ HasNode b n ∨ n = x.node env.fxHash := by
    rw [hl.hasNode_ignoring, hasNode_addTask, hf.hasNode_iff]
    exact Iff.rfl
  have hr (n m : RunTaskNode) : HasRequirement b'' n m ↔ HasRequirement b n m := by
    rw [hl.hasRequirement_ignoring, hw'.hasRequirement_addTask, hf.hasRequirement_iff]
    exact Iff.rfl
  have hlk : b''.ignoredDependencies.lookup t.target =
      if t.target = x.task.target ∧ x.task.deps ≠ [] then some (x.task.deps.map (·.target))
      else b.ignoredDependencies.lookup t.target := by
    rw [hl.lookup_ignoring]
    change (if _ then _ else b'.ignoredDependencies.lookup t.target) = _
    rw [hf.rest]
    change (if _ then _ else (takeRecords x b).ignoredDependencies.lookup t.target) = _
    rw [lookup_takeRecords_outOfScope hs]
  by_cases ht : x.task.target = t.target
  · have hx := task_eq_of_target hknown htask ht
    apply h.ignore huniform hvisited hx hs hnw hnd hr
    rw [hlk, hx]
    by_cases hd : t.deps = [] <;> simp [hd]
  · apply h.congr _ (fun n m _ => hr n m)
    · rw [hl.rest]
      change b.passthroughTargets ⊆
        (ignoreDependencies x (addTask (x.node env.fxHash) b')).passthroughTargets
      apply List.Subset.trans _ (grows_ignoreDependencies x _).passthrough
      exact hf.grows.passthrough
    · rw [hlk, if_neg]
      rintro ⟨heq, -⟩
      exact ht heq.symm
    · intro n hn
      rw [hnd]
      apply or_iff_left
      rintro rfl
      exact ht hn

end

/-- The outline that keeps the books of one task. Its ghost argument are the nodes whose
dependencies are being visited. -/
def ignoreOutline (env : BuilderEnv A) (calls : List BuilderCall) (task : Task) :
    Outline A (RunTaskNode → Prop) where
  pre := IgnoreState env calls task
  ready := IgnoreState env calls task
  expanding p x step _ b :=
    IgnoreState env calls task (fun n => p n ∨ n = x.node env.fxHash) x b ∧
      x.shouldRunDependencies = true ∧ x.isPassthrough = false ∧
      (step = .expand → x.shouldRunDependents = true)
  linked p x step b :=
    IgnoreState env calls task p x b ∧ (step = .expand → x.shouldRunDependents = true)
  reporting p x r _ b :=
    IgnoreState env calls task p x b ∧ x.shouldRunDependents = true ∧
      (r = none → x.task.target ∈ b.passthroughTargets)
  post p x r b :=
    Bookkept env calls task p b ∧
      (x.reqs.skipAffected = true → r = none → x.task.target ∈ b.passthroughTargets)
  fact dep r b := r = none → dep.task.target ∈ b.passthroughTargets
  error _ := True

theorem ignoreOutline_valid {t : Task} (htask : Known env t) (huniform : Uniform env cs t.target) :
    (ignoreOutline env cs t).Valid env where
  failed _ _ := trivial
  checked p x b answer b' _ hp hrn hrs := by
    have hbk : Bookkept env cs t p b' := by
      rw [hrs]
      exact hp.books.congr (fun _ _ => Iff.rfl) (fun _ _ _ => Iff.rfl) (List.Subset.refl _) rfl
    cases answer with
    | true => exact ⟨hp.visited, hp.known, hbk⟩
    | false =>
      refine ⟨hbk, fun hsk => ?_⟩
      cases (isTaskAffected_of_skip hsk hrn).1
  skipped p x b hrd ht := ⟨hrd.books, fun _ _ => ht⟩
  passed p x b hrd ht _ := by
    have hbk : Bookkept env cs t p (passThrough x b) :=
      hrd.books.congr (fun _ _ => Iff.rfl) (fun _ _ _ => Iff.rfl)
        (fun _ h => mem_insert_of_mem h) rfl
    have hm : x.task.target ∈ (passThrough x b).passthroughTargets := mem_insert_self
    cases hsc : x.shouldRunDependents with
    | true => exact ⟨⟨hrd.visited, hrd.known, hbk⟩, hsc, fun _ => hm⟩
    | false => exact ⟨hbk, fun _ _ => hm⟩
  revisited p x b _ hrd _ hps hm := by
    have hbk := hrd.books.revisit htask huniform hrd.visited hrd.known hm
    have hs := revisitStep_expand x b
    cases hh : hadIgnoredDependencies x b with
    | true =>
      rw [hh] at hbk
      exact ⟨⟨hrd.visited, hrd.known, hbk⟩, (Bool.and_eq_true_iff.mp hh).1, hps, hs⟩
    | false =>
      rw [hh] at hbk
      exact ⟨⟨hrd.visited, hrd.known, hbk⟩, hs⟩
  inserted p x b b' _ hw' hrd _ hps hnw hf := by
    have hs := insertStep_expand x
    cases hsc : x.shouldRunDependencies with
    | true =>
      exact ⟨⟨hrd.visited, hrd.known, hrd.books.insertInScope htask huniform
        hrd.visited hrd.known hsc hw' hf⟩, hsc, hps, hs⟩
    | false =>
      intro b'' hl
      exact ⟨⟨hrd.visited, hrd.known, hrd.books.insertOutOfScope htask huniform
        hrd.visited hrd.known hsc hnw hw' hf hl⟩, hs⟩
  dependency p x step done dep rest hsp b _ hb := by
    obtain ⟨hst, hsc, hps, hs⟩ := hb
    have hd : dep ∈ dependencyVisits env x := by
      rw [hsp]
      simp
    have hsk : dep.reqs.skipAffected := by
      obtain ⟨config, -, d, -, rfl⟩ := mem_dependencyVisits hd
      rfl
    refine ⟨fun n => p n ∨ n = x.node env.fxHash,
      ⟨hst.visited.dependency hps hsc hd, known_of_dependency hd, hst.books⟩, ?_⟩
    intro r b' _ _ _ hen
    exact ⟨⟨⟨hst.visited, hst.known, hen.1⟩, hsc, hps, hs⟩, hen.2 hsk⟩
  serial p x step done dep rest hsp _ earlier _ b b' _ hb ho := by
    obtain ⟨hst, hrs⟩ := hb
    refine ⟨⟨hst.visited, hst.known, hst.books.congr ?_ ?_ ?_ ?_⟩, hrs⟩
    · intro n _
      unfold HasNode
      rw [ho.nodes]
    · intro n m _
      exact ho.hasRequirement n m
    · rw [ho.rest]
      exact List.Subset.refl _
    · rw [ho.rest]
  link p x step b b' ts _ hb _ _ htg hrv hl := by
    obtain ⟨hst, hsc, -, hs⟩ := hb
    refine ⟨⟨hst.visited, hst.known, ?_⟩, hs⟩
    apply Bookkept.link hst.visited hsc (task_eq_of_target hst.known htask) hst.books _ hrv hl
    exact fun dep hd => (htg dep hd).imp id (fun hn => hn rfl)
  cycle _ _ _ _ _ _ _ _ _ _ := trivial
  reported p x step index b _ hb _ := by
    cases step with
    | expand => exact ⟨hb.1, hb.2 rfl, fun h => by cases h⟩
    | ignore =>
      exact ⟨hb.1.books.congr (fun _ _ => Iff.rfl) (fun _ _ _ => Iff.rfl) (List.Subset.refl _) rfl,
        fun _ h => by cases h⟩
    | keep => exact ⟨hb.1.books, fun _ h => by cases h⟩
  dependent p x r done dep rest hsp b _ hb := by
    obtain ⟨hst, hsc, hn⟩ := hb
    have hd : dep ∈ dependentVisits env x := by
      rw [hsp]
      simp
    refine ⟨p, ⟨hst.visited.dependent hsc hd, known_of_dependent hd, hst.books⟩, ?_⟩
    intro r' b' _ hg hen
    exact ⟨⟨hst.visited, hst.known, hen.1⟩, hsc, fun hr => hg.passthrough (hn hr)⟩
  finished p x r b _ hb := ⟨hb.1.books, fun _ => hb.2.2⟩
  mono dep r b b' hg hfc hr := hg.passthrough (hfc hr)

@[simp] lemma build_ignoredDependencies (b : ActionGraphBuilder A) :
    b.build.1.ignoredDependencies = b.ignoredDependencies := by
  unfold build
  generalize hc : ({
    ignoredDependencies := b.ignoredDependencies
    primaryTargets := b.primaryTargets } : ActionContext) = c
  rw [show b.ignoredDependencies = c.ignoredDependencies by rw [← hc]]
  clear hc
  induction b.passthroughTargets generalizing c with
  | nil => rfl
  | cons target ts ih => exact ih (c.setTargetState target .passthrough)

lemma build_targetStates {b : ActionGraphBuilder A} {target : Target}
    (h : target ∈ b.passthroughTargets) :
    b.build.1.targetStates.lookup target = some .passthrough := by
  unfold build
  have hf (ts : List Target) (c : ActionContext)
      (hs : ∀ t v, c.targetStates.lookup t = some v → v = .passthrough)
      (htg : target ∈ ts ∨ c.targetStates.lookup target = some .passthrough) :
      (ts.foldl (fun c target => c.setTargetState target .passthrough)
        c).targetStates.lookup target = some .passthrough := by
    induction ts generalizing c with
    | nil => exact htg.resolve_left not_mem_nil
    | cons f ts ih =>
      apply ih (c.setTargetState f .passthrough)
      · intro t v hv
        unfold ActionContext.setTargetState at hv
        rw [Map.lookup_insertNew] at hv
        by_cases ht : t = f
        · rw [if_pos ht] at hv
          cases ho : c.targetStates.lookup f with
          | none => simpa [ho] using hv.symm
          | some old =>
            rw [ho] at hv
            cases hv
            exact hs f old ho
        · rw [if_neg ht] at hv
          exact hs t v hv
      · unfold ActionContext.setTargetState
        rw [Map.lookup_insertNew]
        by_cases ht : target = f
        · rw [if_pos ht]
          cases ho : c.targetStates.lookup f with
          | none => exact .inr rfl
          | some old => exact .inr (by rw [hs f old ho]; rfl)
        · rw [if_neg ht]
          exact htg.imp (fun hm => (mem_cons.mp hm).resolve_left ht) id
  exact hf _ _ (by simp) (.inl h)

lemma runBuilder_bookkept {t : Task}
    (n : Nat) (hknown : ∀ t re, BuilderCall.runTask t re ∈ cs → Known env t)
    (htask : Known env t) (huniform : Uniform env cs t.target) :
    Triple (fun b => WellFormed env b ∧ Bookkept env cs t (fun _ => False) b) (runBuilder env n cs)
      (fun _ b => WellFormed env b ∧ Bookkept env cs t (fun _ => False) b)
      (fun _ _ => True) := by
  apply runBuilder_rule
  · rintro b b' hsm ⟨hw, hb⟩
    rw [hsm]
    exact ⟨hw.congr rfl rfl rfl,
      hb.congr (fun _ _ => Iff.rfl) (fun _ _ _ => Iff.rfl) (List.Subset.refl _) rfl⟩
  · intro c hc v hv
    have hvisited : VisitedBy env cs v := ⟨c, hc, v, hv, .call⟩
    have hs : Known env v.task ∧ v = { task := v.task, reqs := v.reqs } := by
      cases c with
      | runTask requested re =>
        cases mem_singleton.mp hv
        exact ⟨hknown requested re hc, rfl⟩
      | runTasks locators re =>
        obtain ⟨requested, hr, rfl⟩ := mem_map.mp hv
        exact ⟨mem_requestedTasks_known hr, rfl⟩
    rintro b ⟨hw, hb⟩
    have hp : IgnoreState env cs t (fun _ => False)
        { task := v.task, reqs := v.reqs } b :=
      ⟨hs.2 ▸ hvisited, hs.1, hb⟩
    refine ((ignoreOutline_valid htask huniform).runTask n hw hp).post ?_ b rfl
    · rintro r b' ⟨b₁, hen, hb'⟩
      rw [hb']
      exact ⟨hen.wellFormed.congr rfl rfl rfl, hen.post.1.congr (fun _ _ => Iff.rfl)
        (fun _ _ _ => Iff.rfl) (List.Subset.refl _) rfl⟩

/-- In the graph of any calls, every dependency of a node is recorded as ignored, or every task that
it names has an edge from the node or is passed through. A target with ignored dependencies has at
most edges of serial orders to them. -/
theorem dependencies_linked_passed_through_or_ignored {env : BuilderEnv A} {fuel : Nat}
    {calls : List BuilderCall} {affected : Option A} {b : ActionGraphBuilder A}
    (hknown : ∀ task reqs, BuilderCall.runTask task reqs ∈ calls → Known env task)
    (hrun : (runBuilder env fuel calls).run { affected := affected } = .ok () b)
    {task : Task} (htask : Known env task) (huniform : Uniform env calls task.target) :
    (∀ n, .runTask n ∈ b.build.2.nodes → n.target = task.target → ∀ dep ∈ task.deps,
      b.build.1.isDependencyIgnored task.target dep.target = true ∨
      (Resolves env dep.target ∧ ∀ d ∈ resolved env dep.target,
        (∃ m, m.target = d.target ∧ Linked b b.build.2.edges n m) ∨
          b.build.1.targetStates.lookup d.target = some .passthrough)) ∧
    (∀ de, b.build.1.isDependencyIgnored task.target de = true →
      ∀ i j n m, TaskAt b i n → TaskAt b j m → n.target = task.target → m.target = de →
        (i, j) ∈ b.build.2.edges → (i, j) ∈ b.serialEdges) := by
  have hb := runBuilder_bookkept fuel hknown htask huniform { affected := affected }
    ⟨wellFormed_new env affected,
      by constructor <;> simp [HasNode, HasRequirement, Linked, ActionGraph.empty]⟩
  rw [hrun] at hb
  obtain ⟨hw, hb⟩ := hb
  unfold ActionContext.isDependencyIgnored
  simp only [build_ignoredDependencies]
  constructor
  · intro n hn ht dep hd
    rcases hb.covered n ht hn with hp | hl | hig
    · exact hp.elim
    · obtain ⟨hrv, hts⟩ := hl dep hd
      refine .inr ⟨hrv, fun d hdt => ?_⟩
      apply (hts d hdt).imp _ build_targetStates
      rintro ⟨m, hm, i, j, hi, hj, hij⟩
      exact ⟨m, hm, i, j, hi, hj, hw.requirements _ hij⟩
    · refine .inl ?_
      rw [hig]
      simpa using ⟨dep, hd, rfl⟩
  · intro de hig i j n m hi hj hn _ hij
    have hr : (b.ignoredDependencies.lookup task.target).isSome := by
      cases hlk : b.ignoredDependencies.lookup task.target with
      | none => simp [hlk] at hig
      | some _ => rfl
    rcases hw.edges _ hij with hrq | hs
    · exact absurd ⟨i, j, hi, hj, hrq⟩ (hb.ignored hr n m hn)
    · exact hs

def compileTask : Task := { target := Target.new "app" "compile" }

def testTask : Task :=
  { target := Target.new "app" "test", deps := [{ target := compileTask.target }] }

def verifyTask : Task :=
  { target := Target.new "app" "verify"
    deps := [{ target := compileTask.target }, { target := testTask.target }]
    options := { runDepsInParallel := false } }

def coverTask : Task :=
  { target := Target.new "app" "cover"
    deps := [{ target := testTask.target, args := ["--coverage"] }] }

def verifyWorkspace : WorkspaceGraph :=
  { projects := [{ id := "app" }], tasks := [compileTask, testTask, verifyTask, coverTask] }

def verifyEnv : BuilderEnv AffectedMarks :=
  { workspace := verifyWorkspace, tracker := affectedTracker { workspace := verifyWorkspace } }

/-- A serial order puts an edge between `test` and `compile`, which `test` is recorded to ignore.
Adding `test` in scope removes the record that `test --coverage`, added out of scope, needs. -/
theorem verify_ignored_with_edge_and_cover_unrecorded :
    (∃ b, (runBuilder verifyEnv 10 [.runTask verifyTask { dependencies := .direct }]).run {} =
        .ok () b ∧
      b.build.1.isDependencyIgnored testTask.target compileTask.target = true ∧
      ∃ n m, n.target = testTask.target ∧ m.target = compileTask.target ∧
        Linked b b.build.2.edges n m) ∧
    (∃ b, (runBuilder verifyEnv 10 [.runTask coverTask { dependencies := .direct },
        .runTask testTask { dependencies := .direct }]).run {} = .ok () b ∧
      ∃ n, .runTask n ∈ b.build.2.nodes ∧ n.target = testTask.target ∧
        (∀ m, m.target = compileTask.target → ¬ Linked b b.build.2.edges n m) ∧
        b.build.1.targetStates.lookup compileTask.target = none ∧
        b.build.1.isDependencyIgnored testTask.target compileTask.target = false) := by
  constructor
  · obtain ⟨_, b, hr, hc⟩ := exists_run_of_check (s := {})
      (x := runBuilder verifyEnv 10 [.runTask verifyTask { dependencies := .direct }])
      (p := fun _ b =>
        decide (b.build.1.isDependencyIgnored testTask.target compileTask.target ∧
          ∃ pa ∈ linkedTasks b b.build.2.edges, pa.1.target = testTask.target ∧
            pa.2.target = compileTask.target)) (by decide +kernel)
    obtain ⟨hi, ⟨n, m⟩, hp, hn, hm⟩ := of_decide_eq_true hc
    exact ⟨b, hr, hi, n, m, hn, hm, mem_linkedTasks.mp hp⟩
  · obtain ⟨_, b, hr, hc⟩ := exists_run_of_check (s := {})
      (x := runBuilder verifyEnv 10 [.runTask coverTask { dependencies := .direct },
        .runTask testTask { dependencies := .direct }])
      (p := fun _ b =>
        decide (.runTask { args := ["--coverage"], target := testTask.target, id := some 1 } ∈
            b.build.2.nodes ∧
          (∀ pa ∈ linkedTasks b b.build.2.edges,
            pa.1 = { args := ["--coverage"], target := testTask.target, id := some 1 } →
              pa.2.target ≠ compileTask.target) ∧
          b.build.1.targetStates.lookup compileTask.target = none ∧
          b.build.1.isDependencyIgnored testTask.target compileTask.target = false))
      (by decide +kernel)
    obtain ⟨hnd, hes, hs, hi⟩ := of_decide_eq_true hc
    refine ⟨b, hr, _, hnd, rfl, fun m hm hl => ?_, hs, hi⟩
    exact hes _ (mem_linkedTasks.mpr hl) rfl hm

/-- With deep dependencies, both nodes of `test` are covered. -/
theorem cover_and_test_linked_passed_through_or_ignored :
    Uniform verifyEnv [.runTask coverTask {}, .runTask testTask {}] testTask.target ∧
    ∃ b, (runBuilder verifyEnv 10 [.runTask coverTask {}, .runTask testTask {}]).run {} = .ok () b ∧
      ∀ n, .runTask n ∈ b.build.2.nodes → n.target = testTask.target → ∀ dep ∈ testTask.deps,
        b.build.1.isDependencyIgnored testTask.target dep.target = true ∨
        (Resolves verifyEnv dep.target ∧ ∀ depTask ∈ resolved verifyEnv dep.target,
          (∃ m, m.target = depTask.target ∧ Linked b b.build.2.edges n m) ∨
            b.build.1.targetStates.lookup depTask.target = some .passthrough) := by
  have huniform : Uniform verifyEnv [.runTask coverTask {}, .runTask testTask {}]
      testTask.target := by
    rintro x y - ⟨c, hc, r, hrq, hvisited⟩ - - - - hs
    have hd : y.reqs.dependencies = .deep := by
      rw [hvisited.dependencies_eq]
      rcases mem_pair.mp hc with rfl | rfl <;>
        · cases mem_singleton.mp hrq
          rfl
    simp [TaskVisit.shouldRunDependencies, hd, UpstreamScope.isInScope] at hs
  obtain ⟨_, b, hr, -⟩ := exists_run_of_check (s := {}) (p := fun _ _ => true)
    (x := runBuilder verifyEnv 10 [.runTask coverTask {}, .runTask testTask {}])
    (by decide +kernel)
  refine ⟨huniform, b, hr, (dependencies_linked_passed_through_or_ignored ?_ hr
    (show Known verifyEnv testTask by unfold Known; decide) huniform).1⟩
  intro t reqs hm
  rcases mem_pair.mp hm with hc | hc <;> cases hc <;> unfold Known <;> decide

end Moon.Proofs.Builder
