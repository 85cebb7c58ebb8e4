import Moon.Proofs.Builder.Reached

/-! # Exploration -/

namespace Moon.Proofs.Builder

open ActionGraphBuilder List

variable {n : RunTaskNode} {target : Target}

variable {A : Type}

/-- The visit is made, and adds the node of its task. -/
structure Runs (env : BuilderEnv A) (plan : RunPlan) (visit : TaskVisit) : Prop where
  reached : Reached env plan visit
  takes : Takes plan visit
  runs : visit.isPassthrough = false

structure Passes (env : BuilderEnv A) (plan : RunPlan) (visit : TaskVisit) : Prop where
  reached : Reached env plan visit
  takes : Takes plan visit
  passes : visit.isPassthrough = true

/-- Whether a task is affected does not depend on the checks before, and a passthrough target is not
visited with its dependents in scope and out of scope. -/
structure Settled (env : BuilderEnv A) (plan : RunPlan) (marks : Option A → Prop) : Prop where
  known : ∀ task, plan.requested task → Known env task
  task : ∀ visit b answer b', Reached env plan visit → visit.reqs.skipAffected = false →
    marks b.affected → (isTaskAffected env visit.task visit.reqs).run b = .ok answer b' →
      answer = plan.affected visit.task ∧ marks b'.affected
  project : ∀ before after, ProjectMark env before after → marks before → marks after
  passes : ∀ visit other, Passes env plan visit → Passes env plan other →
    visit.task.target = other.task.target → visit.shouldRunDependents = other.shouldRunDependents
  depth : plan.reqs.dependencies = .direct → plan.reqs.dependents = .deep →
    ∀ task x, plan.requested task → Visited env { task := task, reqs := plan.reqs } x →
      x.state.depth ≠ 255

namespace Pending

def atNode (pending : Pending) (n : RunTaskNode) : Pending :=
  { pending with nodes := fun m => pending.nodes m ∨ m = n }

def expanding (pending : Pending) (target : Target) : Pending :=
  { pending with dependents := fun other => pending.dependents other ∨ other = target }

def atStep (pending : Pending) (step : DependentsStep) (target : Target) : Pending :=
  match step with
  | .expand => pending.expanding target
  | .ignore => { pending with ignoring := fun other => pending.ignoring other ∨ other = target }
  | .keep => pending

structure Le (pending pending' : Pending) : Prop where
  nodes : ∀ n, pending.nodes n → pending'.nodes n
  dependents : ∀ target, pending.dependents target → pending'.dependents target
  ignoring : ∀ target, pending.ignoring target → pending'.ignoring target

lemma Le.refl (p : Pending) : p.Le p := ⟨fun _ => id, fun _ => id, fun _ => id⟩

lemma le_atNode (p : Pending) (n : RunTaskNode) : p.Le (p.atNode n) :=
  ⟨fun _ => .inl, fun _ => id, fun _ => id⟩

lemma le_expanding (p : Pending) (target : Target) : p.Le (p.expanding target) :=
  ⟨fun _ => id, fun _ => .inl, fun _ => id⟩

lemma le_atStep (p : Pending) (step : DependentsStep) (target : Target) :
    p.Le (p.atStep step target) := by
  cases step with
  | expand => exact le_expanding p target
  | ignore => exact ⟨fun _ => id, fun _ => id, fun _ => .inl⟩
  | keep => exact .refl p

lemma Le.trans {p q r : Pending} (h : p.Le q) (h' : q.Le r) : p.Le r :=
  ⟨fun n hn => h'.nodes n (h.nodes n hn), fun t ht => h'.dependents t (h.dependents t ht),
    fun t ht => h'.ignoring t (h.ignoring t ht)⟩

end Pending

/-- Everything in the graph is reached. A node with dependencies or dependents in scope has them
covered, unless there is a record of it or it is pending. -/
structure Explored (env : BuilderEnv A) (plan : RunPlan) (marks : Option A → Prop)
    (pending : Pending) (b : ActionGraphBuilder A) : Prop where
  marked : marks b.affected
  nodes : ∀ n, HasNode b n → ∃ visit, Runs env plan visit ∧ n = visit.node env.fxHash
  requirements : ∀ n m, HasRequirement b n m → ∃ visit, Runs env plan visit ∧
    visit.shouldRunDependencies = true ∧ n = visit.node env.fxHash ∧
    ∃ child ∈ dependencyChildren env visit, child.isPassthrough = false ∧ m = child.node env.fxHash
  passed : ∀ target ∈ b.passthroughTargets, ∃ visit, Passes env plan visit ∧
    visit.task.target = target
  ignored : ∀ target, (b.ignoredDependencies.lookup target).isSome = true →
    plan.reqs.dependencies ≠ .deep
  dependencies : ∀ visit, Runs env plan visit → visit.shouldRunDependencies = true →
    HasNode b (visit.node env.fxHash) →
      (b.ignoredDependencies.lookup visit.task.target).isSome = true ∨
      pending.nodes (visit.node env.fxHash) ∨
      DependenciesCovered env b (Covered env plan pending b) visit
  dependents : ∀ visit, Runs env plan visit → visit.shouldRunDependents = true →
    HasNode b (visit.node env.fxHash) →
      visit.task.target ∈ b.ignoredDependents ∨ pending.ignoring visit.task.target ∨
      pending.dependents visit.task.target ∨
      ∀ child ∈ dependentChildren env visit, child ∈ Covered env plan pending b
  passedDependents : ∀ visit, Passes env plan visit → visit.shouldRunDependents = true →
    visit.task.target ∈ b.passthroughTargets →
      pending.dependents visit.task.target ∨
      ∀ child ∈ dependentChildren env visit, child ∈ Covered env plan pending b

section

variable {env : BuilderEnv A} {plan : RunPlan} {ms : Option A → Prop}
  {p p' : Pending} {b b' : ActionGraphBuilder A} {v o x : TaskVisit}

lemma Advances.of_congr (hn : ∀ n, HasNode b' n ↔ HasNode b n)
    (hr : ∀ n m, HasRequirement b' n m ↔ HasRequirement b n m)
    (hp : b'.passthroughTargets = b.passthroughTargets) : Advances b b' :=
  ⟨fun n => (hn n).mpr, fun n m => (hr n m).mpr, by rw [hp]; exact List.Subset.refl _⟩

lemma Explored.congr (h : Explored env plan ms p b) (hm : ms b'.affected)
    (hnd : ∀ n, HasNode b' n ↔ HasNode b n)
    (hr : ∀ n m, HasRequirement b' n m ↔ HasRequirement b n m)
    (hp : b'.passthroughTargets = b.passthroughTargets)
    (hd : b'.ignoredDependencies = b.ignoredDependencies)
    (hdpt : b'.ignoredDependents = b.ignoredDependents) : Explored env plan ms p b' := by
  have had := Advances.of_congr hnd hr hp
  have hc := had.covered_subset env plan p
  constructor
  · exact hm
  · exact fun n hn => h.nodes n ((hnd n).mp hn)
  · exact fun n m hnm => h.requirements n m ((hr n m).mp hnm)
  · rw [hp]
    exact h.passed
  · rw [hd]
    exact h.ignored
  · intro v hrn hs hn
    rw [hd]
    exact (h.dependencies v hrn hs ((hnd _).mp hn)).imp id (Or.imp id (.mono had hc))
  · intro v hrn hs hn
    rw [hdpt]
    exact (h.dependents v hrn hs ((hnd _).mp hn)).imp id
      (Or.imp id (Or.imp id (fun ha c hch => hc (ha c hch))))
  · intro v hpss hs ht
    rw [hp] at ht
    exact (h.passedDependents v hpss hs ht).imp id (fun ha c hch => hc (ha c hch))

lemma Explored.weaken (h : Explored env plan ms p b) (hl : p.Le p') :
    Explored env plan ms p' b := by
  have had : Advances b b := ⟨fun _ => id, fun _ _ => id, List.Subset.refl _⟩
  have hc : Covered env plan p b ⊆ Covered env plan p' b := covered_mono had hl.nodes hl.dependents
  refine { h with dependencies := ?_, dependents := ?_, passedDependents := ?_ }
  · intro v hr hs hn
    exact (h.dependencies v hr hs hn).imp id (Or.imp (hl.nodes _) (.mono had hc))
  · intro v hr hs hn
    exact (h.dependents v hr hs hn).imp id (Or.imp (hl.ignoring _) (Or.imp (hl.dependents _)
        (fun ha c hch => hc (ha c hch))))
  · intro v hp hs ht
    exact (h.passedDependents v hp hs ht).imp (hl.dependents _) (fun ha c hch => hc (ha c hch))

lemma Reached.node_eq_of_scope (hk : ∀ t, plan.requested t → Known env t)
    (hsh : plan.reqs.dependencies ≠ .deep) (h : Reached env plan v) (ho : Reached env plan o)
    (hs : v.shouldRunDependencies) (hs' : o.shouldRunDependencies)
    (ht : v.task.target = o.task.target) : v.node env.fxHash = o.node env.fxHash := by
  have hr {v : TaskVisit} (h : Reached env plan v)
      (hs : v.shouldRunDependencies) : v.config = none := by
    unfold TaskVisit.shouldRunDependencies at hs
    rw [h.reqs_eq] at hs
    cases hd : plan.reqs.dependencies with
    | none => simp [hd, UpstreamScope.isInScope] at hs
    | deep => exact absurd hd hsh
    | direct =>
      have hde : v.state.depth = 0 := by
        simpa [hd, UpstreamScope.isInScope] using hs
      rw [h.eq_request hde]
  unfold TaskVisit.node
  rw [h.task_eq hk ho ht, hr h hs, hr ho hs', h.reqs_eq, ho.reqs_eq]

lemma Explored.takeRecords (hk : ∀ t, plan.requested t → Known env t) (h : Explored env plan ms p b)
    (hv : Reached env plan v) (hsm : Same v x) (hle : p.Le p')
    (hnd : hadIgnoredDependencies x b → p'.nodes (x.node env.fxHash))
    (hd : hadIgnoredDependents x b → p'.dependents x.task.target) :
    Explored env plan ms p' (takeRecords x b) := by
  have hw := h.weaken hle
  have ha := (grows_takeRecords x b).advances
  have hcv := ha.covered_subset env plan p'
  have hl (target : Target) (ho : ¬ (x.shouldRunDependencies ∧
      target = x.task.target)) :
      (Builder.takeRecords x b).ignoredDependencies.lookup target =
        b.ignoredDependencies.lookup target := by
    unfold Builder.takeRecords
    by_cases hs : x.shouldRunDependencies
    · simp only [hs, if_true]
      exact Finmap.lookup_erase_ne (fun heq => ho ⟨hs, heq⟩)
    · simp [hs]
  constructor
  · exact h.marked
  · exact h.nodes
  · exact h.requirements
  · exact h.passed
  · intro target hr
    by_cases ht : x.shouldRunDependencies ∧ target = x.task.target
    · obtain ⟨hs, rfl⟩ := ht
      simp [Builder.takeRecords, hs] at hr
    · rw [hl target ht] at hr
      exact h.ignored target hr
  · intro c hrn hs hn
    rcases hw.dependencies c hrn hs hn with hr | hp | hc
    · by_cases ht : x.shouldRunDependencies ∧ c.task.target = x.task.target
      · obtain ⟨hx, heq⟩ := ht
        have hsmN : c.node env.fxHash = x.node env.fxHash := by
          rw [← hsm.node_eq]
          apply Reached.node_eq_of_scope hk (h.ignored _ hr) hrn.reached hv hs
          · rw [hsm.dependencies]
            exact hx
          · rw [heq, hsm.task]
        rw [heq] at hr
        rw [hsmN]
        exact .inr (.inl (hnd (by simp [hadIgnoredDependencies, hx, hr])))
      · rw [hl _ ht]
        exact .inl hr
    · exact .inr (.inl hp)
    · exact .inr (.inr (hc.mono ha hcv))
  · intro c hrn hs hn
    rcases hw.dependents c hrn hs hn with hr | hp | hp | hc
    · by_cases ht : x.shouldRunDependents ∧ c.task.target = x.task.target
      · obtain ⟨hx, heq⟩ := ht
        rw [heq] at hr ⊢
        exact .inr (.inr (.inl (hd (by
          simp [hadIgnoredDependents, hx, hr]))))
      · refine .inl ?_
        unfold Builder.takeRecords
        by_cases hx : x.shouldRunDependents
        · simp only [hx, if_true]
          exact Finset.mem_erase.mpr ⟨fun heq => ht ⟨hx, heq⟩, hr⟩
        · simpa [hx] using hr
    · exact .inr (.inl hp)
    · exact .inr (.inr (.inl hp))
    · exact .inr (.inr (.inr (fun ch hch => hcv (hc ch hch))))
  · intro c hps hs ht
    exact (hw.passedDependents c hps hs ht).imp id (fun hal ch hch => hcv (hal ch hch))

lemma Explored.insert (h : Explored env plan ms p b) (hv : Runs env plan v) (hm : ms b'.affected)
    (hnd : ∀ n, HasNode b' n ↔ HasNode b n ∨ n = v.node env.fxHash)
    (hr : ∀ n m, HasRequirement b' n m ↔ HasRequirement b n m)
    (hp : b'.passthroughTargets = b.passthroughTargets)
    (hrc : ∀ target, (b.ignoredDependencies.lookup target).isSome →
      (b'.ignoredDependencies.lookup target).isSome)
    (hi : ∀ target, (b'.ignoredDependencies.lookup target).isSome →
      plan.reqs.dependencies ≠ .deep) (hd : b'.ignoredDependents = b.ignoredDependents)
    (hnw : ∀ c, Runs env plan c → c.shouldRunDependencies →
      c.node env.fxHash = v.node env.fxHash →
      (b'.ignoredDependencies.lookup c.task.target).isSome ∨
        p.nodes (v.node env.fxHash) ∨ dependencyChildren env c = [])
    (hpn : p.ignoring v.task.target ∨ p.dependents v.task.target) : Explored env plan ms p b' := by
  have had : Advances b b' :=
    ⟨fun n hn => (hnd n).mpr (.inl hn), fun n m => (hr n m).mpr,
      by rw [hp]; exact List.Subset.refl _⟩
  have hc := had.covered_subset env plan p
  constructor
  · exact hm
  · intro n hn
    rcases (hnd n).mp hn with ho | rfl
    · exact h.nodes n ho
    · exact ⟨v, hv, rfl⟩
  · exact fun n m hnm => h.requirements n m ((hr n m).mp hnm)
  · rw [hp]
    exact h.passed
  · exact hi
  · intro c hrn hs hn
    rcases (hnd _).mp hn with ho | heq
    · exact (h.dependencies c hrn hs ho).imp (hrc _) (Or.imp id (.mono had hc))
    · rcases hnw c hrn hs heq with hre | hnds | hnl
      · exact .inl hre
      · exact .inr (.inl (heq ▸ hnds))
      · refine .inr (.inr ?_)
        unfold DependenciesCovered
        simp [hnl]
  · intro c hrn hs hn
    rcases (hnd _).mp hn with ho | heq
    · rw [hd]
      exact (h.dependents c hrn hs ho).imp id
        (Or.imp id (Or.imp id (fun ha ch hch => hc (ha ch hch))))
    · have ht : c.task.target = v.task.target := congrArg RunTaskNode.target heq
      rw [ht]
      exact .inr (hpn.imp id .inl)
  · intro c hpss hs ht
    rw [hp] at ht
    exact (h.passedDependents c hpss hs ht).imp id (fun ha ch hch => hc (ha ch hch))

lemma Explored.passThrough (h : Explored env plan ms p b)
    (hv : Passes env plan v) (hsm : Same v x) (hl : p.Le p')
    (hpn : ∀ c, Passes env plan c → c.shouldRunDependents →
      c.task.target = x.task.target → p'.dependents x.task.target) :
    Explored env plan ms p' (passThrough x b) := by
  have hw := h.weaken hl
  have had : Advances b (Builder.passThrough x b) :=
    ⟨fun _ => id, fun _ _ => id, fun _ => mem_insert_of_mem⟩
  have hc := had.covered_subset env plan p'
  constructor
  · exact h.marked
  · exact h.nodes
  · exact h.requirements
  · intro target ht
    rcases mem_insert_iff.mp ht with rfl | ho
    · exact ⟨v, hv, by rw [hsm.task]⟩
    · exact h.passed target ho
  · exact h.ignored
  · intro c hr hs hn
    exact (hw.dependencies c hr hs hn).imp id (Or.imp id (.mono had hc))
  · intro c hr hs hn
    exact (hw.dependents c hr hs hn).imp id
      (Or.imp id (Or.imp id (fun ha ch hch => hc (ha ch hch))))
  · intro c hp hs ht
    rcases mem_insert_iff.mp ht with heq | ho
    · rw [heq]
      exact .inl (hpn c hp hs heq)
    · exact (hw.passedDependents c hp hs ho).imp id (fun ha ch hch => hc (ha ch hch))

lemma covered_ignoreDependents : Covered env plan (p.atStep .ignore x.task.target) b ⊆
    Covered env plan p (ignoreDependents x b) :=
  covered_mono ⟨fun _ => id, fun _ _ => id, List.Subset.refl _⟩ (fun _ => id) (fun _ => id)

lemma Explored.ignoreDependents (h : Explored env plan ms (p.atStep .ignore x.task.target) b) :
    Explored env plan ms p (ignoreDependents x b) := by
  have ha : Advances b (Builder.ignoreDependents x b) :=
    ⟨fun _ => id, fun _ _ => id, List.Subset.refl _⟩
  have hc : Covered env plan (p.atStep .ignore x.task.target) b ⊆
      Covered env plan p (Builder.ignoreDependents x b) := covered_ignoreDependents
  constructor
  · exact h.marked
  · exact h.nodes
  · exact h.requirements
  · exact h.passed
  · exact h.ignored
  · intro c hr hs hn
    exact (h.dependencies c hr hs hn).imp id (Or.imp id (.mono ha hc))
  · intro c hr hs hn
    rcases h.dependents c hr hs hn with hrc | (hp | heq) | hp | hcv
    · exact .inl (Finset.mem_insert_of_mem hrc)
    · exact .inr (.inl hp)
    · rw [heq]
      exact .inl (Finset.mem_insert_self _ _)
    · exact .inr (.inr (.inl hp))
    · exact .inr (.inr (.inr (fun ch hch => hc (hcv ch hch))))
  · intro c hps hs ht
    exact (h.passedDependents c hps hs ht).imp id (fun hal ch hch => hc (hal ch hch))

lemma covered_link (ha : Advances b b') (hal : ∀ c, Runs env plan c → c.node env.fxHash = n →
      DependenciesCovered env b' (Covered env plan (p.atNode n) b) c) :
    Covered env plan (p.atNode n) b ⊆ Covered env plan p b' := by
  apply subset_covered
  intro c hc
  have hn := mem_covered_iff.mp hc
  exact
    { reached := hn.reached
      passed := fun ht hps => ha.passthrough (hn.passed ht hps)
      node := fun ht hr => ha.node _ (hn.node ht hr)
      dependencies := by
        intro ht hr hs
        rcases hn.dependencies ht hr hs with (hp | heq) | hcv
        · exact .inl hp
        · exact .inr (hal c ⟨hn.reached, ht, hr⟩ heq)
        · exact .inr (hcv.mono ha (fun _ => id))
      dependents := hn.dependents }

lemma Explored.link (h : Explored env plan ms (p.atNode n) b)
    (hmk : ms b'.affected) (had : Advances b b') (hnd : ∀ m, HasNode b' m → HasNode b m)
    (hrq : ∀ a m, HasRequirement b' a m → HasRequirement b a m ∨
      ∃ v, Runs env plan v ∧ v.shouldRunDependencies ∧
        a = v.node env.fxHash ∧ ∃ ch ∈ dependencyChildren env v,
          ch.isPassthrough = false ∧ m = ch.node env.fxHash)
    (hp : b'.passthroughTargets = b.passthroughTargets)
    (hd : b'.ignoredDependencies = b.ignoredDependencies)
    (hdpt : b'.ignoredDependents = b.ignoredDependents)
    (ha : ∀ c, Runs env plan c → c.node env.fxHash = n →
      DependenciesCovered env b' (Covered env plan (p.atNode n) b) c) :
    Explored env plan ms p b' := by
  have hc := covered_link had ha
  constructor
  · exact hmk
  · exact fun m hm => h.nodes m (hnd m hm)
  · exact fun a m hm => (hrq a m hm).elim (h.requirements a m) id
  · rw [hp]
    exact h.passed
  · rw [hd]
    exact h.ignored
  · intro c hr hs hn
    rw [hd]
    rcases h.dependencies c hr hs (hnd _ hn) with hrc | (hpn | heq) | hcv
    · exact .inl hrc
    · exact .inr (.inl hpn)
    · exact .inr (.inr ((ha c hr heq).mono ⟨fun _ => id, fun _ _ => id, List.Subset.refl _⟩ hc))
    · exact .inr (.inr (hcv.mono had hc))
  · intro c hr hs hn
    rw [hdpt]
    exact (h.dependents c hr hs (hnd _ hn)).imp id
      (Or.imp id (Or.imp id (fun ha ch hch => hc (ha ch hch))))
  · intro c hpss hs ht
    rw [hp] at ht
    exact (h.passedDependents c hpss hs ht).imp id (fun ha ch hch => hc (ha ch hch))

lemma covered_finish (ha : ∀ c, Reached env plan c → c.task.target = target →
      ∀ child ∈ dependentChildren env c, child ∈ Covered env plan (p.expanding target) b) :
    Covered env plan (p.expanding target) b ⊆ Covered env plan p b := by
  apply subset_covered
  intro c hc
  have hn := mem_covered_iff.mp hc
  refine
    { reached := hn.reached
      passed := hn.passed
      node := hn.node
      dependencies := hn.dependencies
      dependents := ?_ }
  intro ht hs
  rcases hn.dependents ht hs with (hp | heq) | hcv
  · exact .inl hp
  · exact .inr (ha c hn.reached heq)
  · exact .inr hcv

lemma Explored.finish (h : Explored env plan ms (p.expanding target) b)
    (ha : ∀ c, Reached env plan c → c.task.target = target →
      ∀ ch ∈ dependentChildren env c, ch ∈ Covered env plan (p.expanding target) b) :
    Explored env plan ms p b := by
  have hc := covered_finish ha
  have had : Advances b b := ⟨fun _ => id, fun _ _ => id, List.Subset.refl _⟩
  refine { h with dependencies := ?_, dependents := ?_, passedDependents := ?_ }
  · intro c hr hs hn
    exact (h.dependencies c hr hs hn).imp id (Or.imp id (.mono had hc))
  · intro c hr hs hn
    rcases h.dependents c hr hs hn with hrc | hp | (hp | heq) | hcv
    · exact .inl hrc
    · exact .inr (.inl hp)
    · exact .inr (.inr (.inl hp))
    · exact .inr (.inr (.inr (fun ch hch =>
        hc (ha c hr.reached heq ch hch))))
    · exact .inr (.inr (.inr (fun ch hch => hc (hcv ch hch))))
  · intro c hps hs ht
    rcases h.passedDependents c hps hs ht with (hp | heq) | hcv
    · exact .inl hp
    · exact .inr (fun ch hch => hc (ha c hps.reached heq ch hch))
    · exact .inr (fun ch hch => hc (hcv ch hch))

end

end Moon.Proofs.Builder
