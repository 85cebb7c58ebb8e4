import Mathlib.Order.FixedPoints
import Mathlib.Order.CompletePartialOrder
import Moon.Proofs.Builder.Calls

/-!
# What a call reaches

The visits that a call of `run_tasks` gives rise to, as a closure that does not depend on the
order of its targets, and how far a builder has got with them.
-/

namespace Moon.Proofs.Builder

open List TaskVisit

variable {A : Type}

structure RunPlan where
  reqs : RunRequirements
  requested : Task → Prop
  affected : Task → Bool

def atDepthOne (visit : TaskVisit) : TaskVisit :=
  { visit with state := ⟨1, visit.state.viaDependency⟩ }

def dependencyChildren (env : BuilderEnv A) (visit : TaskVisit) : List TaskVisit :=
  (dependencyVisits env visit).map atDepthOne

def dependentChildren (env : BuilderEnv A) (visit : TaskVisit) : List TaskVisit :=
  (dependentVisits env visit).map atDepthOne

/-- The call makes the visit: the task is affected, or that is not asked. -/
def Takes (plan : RunPlan) (visit : TaskVisit) : Prop :=
  visit.reqs.skipAffected = true ∨ plan.affected visit.task = true

/-- The visits of a plan, where an unaffected task is not gone through. -/
inductive Reached (env : BuilderEnv A) (plan : RunPlan) : TaskVisit → Prop
  | request {task : Task} (h : plan.requested task) :
      Reached env plan { task := task, reqs := plan.reqs }
  | dependency {visit child : TaskVisit} (h : Reached env plan visit) (htakes : Takes plan visit)
      (hruns : visit.isPassthrough = false) (hscope : visit.shouldRunDependencies = true)
      (hchild : child ∈ dependencyChildren env visit) : Reached env plan child
  | dependent {visit child : TaskVisit} (h : Reached env plan visit) (htakes : Takes plan visit)
      (hscope : visit.shouldRunDependents = true)
      (hchild : child ∈ dependentChildren env visit) : Reached env plan child

section

variable {env : BuilderEnv A} {plan : RunPlan} {visit o child : TaskVisit}

lemma mem_dependencyChildren (h : child ∈ dependencyChildren env visit) :
    ∃ c ∈ visit.task.deps, ∃ d ∈ resolved env c.target,
      child = { task := d
                reqs := { visit.reqs with skipAffected := true }
                config := some c
                state := ⟨1, true⟩ } := by
  obtain ⟨dep, hd, rfl⟩ := mem_map.mp h
  obtain ⟨c, hc, d, hdt, rfl⟩ := mem_dependencyVisits hd
  exact ⟨c, hc, d, hdt, rfl⟩

lemma mem_dependentChildren (h : child ∈ dependentChildren env visit) :
    ∃ t ∈ env.workspace.taskDependents visit.task.target, ∃ d ∈ resolved env t,
        child = { task := d
                  reqs := { visit.reqs with skipAffected := false }
                  state := ⟨1, false⟩ } := by
  obtain ⟨dep, hd, rfl⟩ := mem_map.mp h
  obtain ⟨t, ht, d, hdt, rfl⟩ := mem_dependentVisits hd
  exact ⟨t, ht, d, hdt, rfl⟩

lemma dependencyChildren_congr (ht : visit.task = o.task)
    (hr : { visit.reqs with skipAffected := true } = { o.reqs with skipAffected := true }) :
    dependencyChildren env visit = dependencyChildren env o := by
  unfold dependencyChildren dependencyVisits
  rw [ht]
  simp only [map_flatMap, map_map]
  congr 1
  funext dep
  congr 1
  funext d
  simp only [Function.comp, atDepthOne, dependency, hr]

lemma dependentChildren_congr (ht : visit.task = o.task)
    (hr : { visit.reqs with skipAffected := false } = { o.reqs with skipAffected := false }) :
    dependentChildren env visit = dependentChildren env o := by
  unfold dependentChildren dependentVisits
  rw [ht]
  simp only [map_flatMap, map_map]
  congr 1
  funext t
  congr 1
  funext d
  simp only [Function.comp, atDepthOne, dependent, hr]

lemma takes_of_dependencyChildren (h : child ∈ dependencyChildren env visit) :
    Takes plan child := by
  obtain ⟨c, -, d, -, rfl⟩ := mem_dependencyChildren h
  exact .inl rfl

lemma Reached.reqs_eq (h : Reached env plan visit) :
    visit.reqs = { plan.reqs with skipAffected := visit.reqs.skipAffected } := by
  induction h with
  | request => rfl
  | dependency _ _ _ _ hc ih =>
    obtain ⟨c, -, d, -, rfl⟩ := mem_dependencyChildren hc
    dsimp only
    rw [ih]
  | dependent _ _ _ hc ih =>
    obtain ⟨t, -, d, -, rfl⟩ := mem_dependentChildren hc
    dsimp only
    rw [ih]

lemma Reached.with_skipAffected (h : Reached env plan visit) (ho : Reached env plan o)
    (skip : Bool) :
    { visit.reqs with skipAffected := skip } = { o.reqs with skipAffected := skip } := by
  have hv := congrArg (fun reqs : RunRequirements => { reqs with skipAffected := skip }) h.reqs_eq
  have ho := congrArg (fun reqs : RunRequirements => { reqs with skipAffected := skip }) ho.reqs_eq
  exact hv.trans ho.symm

lemma Reached.known (hr : ∀ k, plan.requested k → Known env k)
    (h : Reached env plan visit) : Known env visit.task := by
  cases h with
  | request h => exact hr _ h
  | dependency _ _ _ _ hc =>
    obtain ⟨c, -, d, hd, rfl⟩ := mem_dependencyChildren hc
    exact mem_resolved_known hd
  | dependent _ _ _ hc =>
    obtain ⟨t, -, d, hd, rfl⟩ := mem_dependentChildren hc
    exact mem_resolved_known hd

lemma Reached.task_eq (hr : ∀ t, plan.requested t → Known env t) (h : Reached env plan visit)
    (ho : Reached env plan o) (ht : visit.task.target = o.task.target) : visit.task = o.task :=
  task_eq_of_target (h.known hr) (ho.known hr) ht

section

variable (h : Reached env plan visit)
include h

lemma Reached.eq_request (hd : visit.state.depth = 0) :
    visit = { task := visit.task, reqs := plan.reqs } := by
  cases h with
  | request => rfl
  | dependency _ _ _ _ hc =>
    obtain ⟨c, -, d, -, rfl⟩ := mem_dependencyChildren hc
    cases hd
  | dependent _ _ _ hc =>
    obtain ⟨t, -, d, -, rfl⟩ := mem_dependentChildren hc
    cases hd

variable (ho : Reached env plan o) (ht : visit.task = o.task)

include ho ht

lemma Reached.isPassthrough_eq : visit.isPassthrough = o.isPassthrough := by
  unfold isPassthrough
  rw [ht, h.reqs_eq, ho.reqs_eq]

lemma Reached.dependencyChildren_eq :
    dependencyChildren env visit = dependencyChildren env o :=
  dependencyChildren_congr ht (h.with_skipAffected ho true)

lemma Reached.dependentChildren_eq :
    dependentChildren env visit = dependentChildren env o :=
  dependentChildren_congr ht (h.with_skipAffected ho false)

end

end

structure Same (visit x : TaskVisit) : Prop where
  task : visit.task = x.task
  reqs : visit.reqs = x.reqs
  config : visit.config = x.config
  via : visit.state.viaDependency = x.state.viaDependency
  dependencies : visit.shouldRunDependencies = x.shouldRunDependencies
  dependents : visit.shouldRunDependents = x.shouldRunDependents

section

variable {env : BuilderEnv A} {visit x dep child : TaskVisit}

lemma Same.refl (x : TaskVisit) : Same x x := ⟨rfl, rfl, rfl, rfl, rfl, rfl⟩

lemma Same.node_eq (h : Same visit x) : visit.node env.fxHash = x.node env.fxHash := by
  unfold node
  rw [h.task, h.reqs, h.config]

lemma Same.isPassthrough_eq (h : Same visit x) : visit.isPassthrough = x.isPassthrough := by
  unfold isPassthrough
  rw [h.task, h.reqs]

lemma Same.mem_dependencyChildren (h : Same visit x) : child ∈ dependencyChildren env visit ↔
    ∃ dep ∈ dependencyVisits env x, atDepthOne dep = child := by
  rw [dependencyChildren_congr h.task (by rw [h.reqs])]
  exact mem_map

lemma Same.mem_dependentChildren (h : Same visit x) : child ∈ dependentChildren env visit ↔
    ∃ dep ∈ dependentVisits env x, atDepthOne dep = child := by
  rw [dependentChildren_congr h.task (by rw [h.reqs])]
  exact mem_map

lemma same_of_dependency (hs : x.shouldRunDependencies)
    (hd : dep ∈ dependencyVisits env x) : Same (atDepthOne dep) dep := by
  obtain ⟨c, -, d, -, rfl⟩ := mem_dependencyVisits hd
  refine ⟨rfl, rfl, rfl, rfl, ?_, rfl⟩
  unfold shouldRunDependencies at hs ⊢
  simp only [atDepthOne, dependency]
  cases hdp : x.reqs.dependencies with
  | none => rfl
  | deep => rfl
  | direct =>
    rw [hdp] at hs
    have hdpt : x.state.depth = 0 := by simpa [UpstreamScope.isInScope] using hs
    rw [hdpt]
    rfl

/-- Dependents too, unless direct dependencies go with a chain of dependents that is too long
for the depth. -/
lemma same_of_dependent (hs : x.shouldRunDependents)
    (hdpt : x.reqs.dependencies = .direct → x.reqs.dependents = .deep → x.state.depth ≠ 255)
    (hde : dep ∈ dependentVisits env x) : Same (atDepthOne dep) dep := by
  obtain ⟨t, -, d, -, rfl⟩ := mem_dependentVisits hde
  unfold shouldRunDependents at hs
  have ho (hdr : x.reqs.dependents = .direct) : x.state.depth + 1 = 1 := by
    rw [hdr] at hs
    have hz : x.state.depth = 0 := by
      simp only [DownstreamScope.isInScope, Bool.and_eq_true, beq_iff_eq] at hs
      exact hs.2
    rw [hz]
    rfl
  have hw (hl : x.state.depth ≠ 255) : (x.state.depth + 1 == 0) = false := by
    rw [beq_eq_false_iff_ne]
    intro hz
    apply hl
    calc x.state.depth = x.state.depth + 1 - 1 := (UInt8.add_sub_cancel _ _).symm
      _ = 0 - 1 := by rw [hz]
      _ = 255 := rfl
  refine ⟨rfl, rfl, rfl, rfl, ?_, ?_⟩
  · simp only [shouldRunDependencies, atDepthOne, dependent]
    cases hdp : x.reqs.dependencies with
    | none => rfl
    | deep => rfl
    | direct =>
      cases hd : x.reqs.dependents with
      | none => simp [hd, DownstreamScope.isInScope] at hs
      | direct => rw [ho hd]
      | deep =>
        simp only [UpstreamScope.isInScope, hw (hdpt hdp hd)]
        rfl
  · simp only [shouldRunDependents, atDepthOne, dependent]
    cases hd : x.reqs.dependents with
    | none => rfl
    | deep => rfl
    | direct => rw [ho hd]

end

/-- What is still to be done: nodes whose dependencies are being visited, targets whose dependents
are being visited or will be ignored. -/
structure Pending where
  nodes : RunTaskNode → Prop := fun _ => False
  dependents : Target → Prop := fun _ => False
  ignoring : Target → Prop := fun _ => False

def DependenciesCovered (env : BuilderEnv A) (b : ActionGraphBuilder A)
    (covered : Set TaskVisit) (visit : TaskVisit) : Prop :=
  ∀ child ∈ dependencyChildren env visit, child ∈ covered ∧ (child.isPassthrough = false →
      HasRequirement b (visit.node env.fxHash) (child.node env.fxHash))

structure Needs (env : BuilderEnv A) (plan : RunPlan) (pending : Pending)
    (b : ActionGraphBuilder A) (covered : Set TaskVisit) (visit : TaskVisit) : Prop where
  reached : Reached env plan visit
  passed : Takes plan visit → visit.isPassthrough = true → visit.task.target ∈ b.passthroughTargets
  node : Takes plan visit → visit.isPassthrough = false → HasNode b (visit.node env.fxHash)
  dependencies : Takes plan visit → visit.isPassthrough = false →
    visit.shouldRunDependencies = true →
      pending.nodes (visit.node env.fxHash) ∨ DependenciesCovered env b covered visit
  dependents : Takes plan visit → visit.shouldRunDependents = true →
    pending.dependents visit.task.target ∨ ∀ child ∈ dependentChildren env visit, child ∈ covered

structure Advances (b b' : ActionGraphBuilder A) : Prop where
  node : ∀ n, HasNode b n → HasNode b' n
  requirement : ∀ n m, HasRequirement b n m → HasRequirement b' n m
  passthrough : b.passthroughTargets ⊆ b'.passthroughTargets

lemma Grows.advances {b b' : ActionGraphBuilder A} (h : Grows b b') : Advances b b' :=
  ⟨fun _ => h.hasNode, fun _ _ => h.hasRequirement, h.passthrough⟩

section

variable {env : BuilderEnv A} {plan : RunPlan} {p p' : Pending}
  {b b' : ActionGraphBuilder A} {c c' : Set TaskVisit} {visit : TaskVisit}

lemma DependenciesCovered.mono (ha : Advances b b') (hcv : c ⊆ c')
    (h : DependenciesCovered env b c visit) : DependenciesCovered env b' c' visit :=
  fun child hc => ⟨hcv (h child hc).1, fun hr => ha.requirement _ _ ((h child hc).2 hr)⟩

lemma Needs.mono (ha : Advances b b') (hc : c ⊆ c') (hn : ∀ n, p.nodes n → p'.nodes n)
    (hd : ∀ t, p.dependents t → p'.dependents t) (h : Needs env plan p b c visit) :
    Needs env plan p' b' c' visit where
  reached := h.reached
  passed ht hp := ha.passthrough (h.passed ht hp)
  node ht hr := ha.node _ (h.node ht hr)
  dependencies ht hr hs := (h.dependencies ht hr hs).imp (hn _) (.mono ha hc)
  dependents ht hs :=
    (h.dependents ht hs).imp (hd _) (fun hal child hch =>
      hc (hal child hch))

section

variable (env : BuilderEnv A) (plan : RunPlan) (pending : Pending) (b : ActionGraphBuilder A)

def needs :
    Set TaskVisit →o Set TaskVisit where
  toFun c := { visit | Needs env plan pending b c visit }
  monotone' _ _ hcovered _ h :=
    h.mono ⟨fun _ => id, fun _ _ => id, List.Subset.refl _⟩ hcovered (fun _ => id) (fun _ => id)

/-- A visit is covered if nothing is missing for it, or for what it leads to, but what is
pending. This is the largest such set: visits may lead back to each other. -/
def Covered : Set TaskVisit :=
  (needs env plan pending b).gfp

end

lemma mem_covered_iff : visit ∈ Covered env plan p b ↔
    Needs env plan p b (Covered env plan p b) visit := by
  have hg := (needs env plan p b).map_gfp
  constructor
  · intro h
    unfold Covered at h
    rw [← hg] at h
    exact h
  · intro h
    unfold Covered
    rw [← hg]
    exact h

lemma subset_covered {s : Set TaskVisit} (h : ∀ visit ∈ s, Needs env plan p b s visit) :
    s ⊆ Covered env plan p b :=
  (needs env plan p b).le_gfp h

lemma covered_mono (ha : Advances b b') (hn : ∀ n, p.nodes n → p'.nodes n)
    (hd : ∀ t, p.dependents t → p'.dependents t) : Covered env plan p b ⊆ Covered env plan p' b' :=
  subset_covered (fun _ h => (mem_covered_iff.mp h).mono ha (fun _ => id) hn hd)

lemma Advances.covered_subset (h : Advances b b') (env : BuilderEnv A) (plan : RunPlan)
    (p : Pending) : Covered env plan p b ⊆ Covered env plan p b' :=
  covered_mono h (fun _ => id) (fun _ => id)

lemma Reached.mem_covered
    (hr : ∀ t, plan.requested t → { task := t, reqs := plan.reqs } ∈ Covered env plan {} b)
    (h : Reached env plan visit) : visit ∈ Covered env plan {} b := by
  induction h with
  | request h => exact hr _ h
  | dependency _ ht hrn hs hc ih =>
    have ha := ((mem_covered_iff.mp ih).dependencies ht hrn hs).resolve_left id
    exact (ha _ hc).1
  | dependent _ ht hs hc ih =>
    exact ((mem_covered_iff.mp ih).dependents ht hs).resolve_left id _ hc

end

end Moon.Proofs.Builder
