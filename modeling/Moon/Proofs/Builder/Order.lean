import Moon.Proofs.Builder.Explored

/-!
# The order of the requested targets

A call of `run_tasks` that is not divided among jobs builds the nodes and links of what it
reaches, so that they do not depend on the order of its targets.
-/

namespace Moon.Proofs.Builder

open Moon.Lib ActionGraphBuilder List

variable {ts : RunTaskNode → Prop} {n e : RunTaskNode}

variable {A : Type}

structure Ghost where
  visit : TaskVisit
  pending : Pending

structure AtVisit (env : BuilderEnv A) (plan : RunPlan) (g : Ghost) (x : TaskVisit) : Prop where
  reached : Reached env plan g.visit
  same : Same g.visit x
  visited : ∃ task, plan.requested task ∧ Visited env { task := task, reqs := plan.reqs } x
  /-- Dependents are still to be ignored only while dependencies are visited. -/
  via : ∀ target, g.pending.ignoring target → x.state.viaDependency = true

def orderOutline (env : BuilderEnv A) (plan : RunPlan) (marks : Option A → Prop) :
    Outline A Ghost where
  pre g x b := AtVisit env plan g x ∧ Explored env plan marks g.pending b
  ready g x b := AtVisit env plan g x ∧ Takes plan g.visit ∧ Explored env plan marks g.pending b
  expanding g x step d b :=
    let pending := (g.pending.atStep step x.task.target).atNode (x.node env.fxHash)
    AtVisit env plan g x ∧ Runs env plan g.visit ∧ x.shouldRunDependencies = true ∧
      (step = .expand → x.shouldRunDependents = true) ∧ Explored env plan marks pending b ∧
      g.visit ∈ Covered env plan pending b ∧
      ∀ dep ∈ d, atDepthOne dep ∈ Covered env plan pending b
  linked g x step b :=
    let pending := g.pending.atStep step x.task.target
    AtVisit env plan g x ∧ Runs env plan g.visit ∧
      (step = .expand → x.shouldRunDependents = true) ∧ Explored env plan marks pending b ∧
      g.visit ∈ Covered env plan pending b
  reporting g x r d b :=
    let pending := g.pending.expanding x.task.target
    AtVisit env plan g x ∧ Takes plan g.visit ∧ x.shouldRunDependents = true ∧
      (r = none ↔ x.isPassthrough = true) ∧ Explored env plan marks pending b ∧
      g.visit ∈ Covered env plan pending b ∧
      ∀ dep ∈ d, atDepthOne dep ∈ Covered env plan pending b
  post g x r b := Explored env plan marks g.pending b ∧ g.visit ∈ Covered env plan g.pending b ∧
    (Takes plan g.visit → (r = none ↔ x.isPassthrough = true))
  fact dep r _ := r = none ↔ dep.isPassthrough = true
  error _ := True

section

variable {env : BuilderEnv A} {plan : RunPlan} {ms : Option A → Prop} {g : Ghost}
  {b b' : ActionGraphBuilder A} {x dep : TaskVisit} {p : Pending}

lemma AtVisit.runs (h : AtVisit env plan g x) (ht : Takes plan g.visit)
    (hr : x.isPassthrough = false) : Runs env plan g.visit :=
  ⟨h.reached, ht, by rw [h.same.isPassthrough_eq, hr]⟩

lemma mem_covered_of_passes (h : Passes env plan g.visit)
    (ht : g.visit.task.target ∈ b.passthroughTargets)
    (hd : g.visit.shouldRunDependents → p.dependents g.visit.task.target ∨
      ∀ c ∈ dependentChildren env g.visit, c ∈ Covered env plan p b) :
    g.visit ∈ Covered env plan p b := by
  have hr (h' : g.visit.isPassthrough = false) : False := by
    rw [h.passes] at h'
    cases h'
  exact mem_covered_iff.mpr ⟨h.reached, fun _ _ => ht, fun _ h' => (hr h').elim,
    fun _ h' => (hr h').elim, fun _ => hd⟩

lemma mem_covered_of_runs (h : Runs env plan g.visit) (hn : HasNode b (g.visit.node env.fxHash))
    (hd : g.visit.shouldRunDependencies → p.nodes (g.visit.node env.fxHash) ∨
        DependenciesCovered env b (Covered env plan p b) g.visit)
    (hdp : g.visit.shouldRunDependents → p.dependents g.visit.task.target ∨
      ∀ c ∈ dependentChildren env g.visit, c ∈ Covered env plan p b) :
    g.visit ∈ Covered env plan p b := by
  refine mem_covered_iff.mpr ⟨h.reached, fun _ hp => ?_, fun _ _ => hn, fun _ _ => hd, fun _ => hdp⟩
  rw [h.runs] at hp
  cases hp

lemma revisit_dependents (hv : AtVisit env plan g x) (hrn : Runs env plan g.visit)
    (h : Explored env plan ms g.pending b) (hn : HasNode b (g.visit.node env.fxHash))
    (hs : g.visit.shouldRunDependents) :
    (g.pending.atStep (revisitStep x b) x.task.target).dependents g.visit.task.target ∨
      ∀ c ∈ dependentChildren env g.visit, c ∈ Covered env plan g.pending b := by
  have hx : x.shouldRunDependents := by rw [← hv.same.dependents, hs]
  rcases h.dependents g.visit hrn hs hn with hr | hi | hp | hc
  · have hst : revisitStep x b = .expand := by
      rw [hv.same.task] at hr
      simp [revisitStep, hadIgnoredDependents, hx, hr]
    rw [hst, hv.same.task]
    exact .inl (.inr rfl)
  · have hvi := hv.via _ hi
    simp [TaskVisit.shouldRunDependents, hvi] at hx
  · exact .inl ((g.pending.le_atStep _ _).dependents _ hp)
  · exact .inr hc

lemma hadIgnoredDependents_step (x : TaskVisit) (b : ActionGraphBuilder A) (p : Pending)
    (h : hadIgnoredDependents x b) :
    (p.atStep (revisitStep x b) x.task.target).dependents x.task.target := by
  rw [show revisitStep x b = .expand by simp [revisitStep, h]]
  exact .inr rfl

lemma insertStep_pending (x : TaskVisit) (p : Pending) :
    (p.atStep (insertStep x) x.task.target).ignoring x.task.target ∨
      (p.atStep (insertStep x) x.task.target).dependents x.task.target := by
  unfold insertStep
  by_cases hs : x.shouldRunDependents
  · rw [if_pos hs]
    exact .inr (.inr rfl)
  · rw [if_neg hs]
    exact .inl (.inr rfl)

lemma insertStep_dependents (x : TaskVisit) (p : Pending) (hs : x.shouldRunDependents) :
    (p.atStep (insertStep x) x.task.target).dependents x.task.target := by
  unfold insertStep
  rw [if_pos hs]
  exact .inr rfl

lemma Settled.marks_of_frame (h : Settled env plan ms) (hf : SetupFrame env b b')
    (hm : ms b.affected) : ms b'.affected := by
  have hs := hf.marks
  generalize b'.affected = after at hs
  induction hs with
  | refl => exact hm
  | tail _ hst ih => exact h.project _ _ hst ih

section

variable (hs : Settled env plan ms) (hv : AtVisit env plan g x) (hrn : Runs env plan g.visit)
  (h : Explored env plan ms g.pending b)

include hs hv hrn h

/-- The nodes and records after a new node has been inserted, whose dependencies are to be
visited. -/
lemma explored_insertInScope (hw' : WellFormed env b') (hf : SetupFrame env (takeRecords x b) b') :
    Explored env plan ms
      ((g.pending.atStep (insertStep x) x.task.target).atNode (x.node env.fxHash))
      (addTask (x.node env.fxHash) b') := by
  have hn : g.visit.node env.fxHash = x.node env.fxHash := hv.same.node_eq
  have ht := h.takeRecords hs.known hv.reached hv.same
    ((g.pending.le_atStep (insertStep x) x.task.target).trans
      (Pending.le_atNode _ (x.node env.fxHash))) (fun _ => .inr rfl)
    (fun hh => insertStep_dependents x g.pending (Bool.and_eq_true_iff.mp hh).1)
  have hrs : b'.ignoredDependencies = (takeRecords x b).ignoredDependencies ∧
      b'.ignoredDependents = (takeRecords x b).ignoredDependents ∧
      b'.passthroughTargets = b.passthroughTargets := by
    rw [hf.rest]
    exact ⟨rfl, rfl, rfl⟩
  have hm : ms b'.affected := hs.marks_of_frame hf h.marked
  apply ht.insert hrn
  · exact hm
  · intro n
    rw [hasNode_addTask, hf.hasNode_iff, hn]
  · intro n m
    rw [hw'.hasRequirement_addTask, hf.hasRequirement_iff]
  · exact hrs.2.2
  · intro t hr
    change (b'.ignoredDependencies.lookup t).isSome
    rwa [hrs.1]
  · intro t hr
    change (b'.ignoredDependencies.lookup t).isSome at hr
    rw [hrs.1] at hr
    exact ht.ignored t hr
  · exact hrs.2.1
  · exact fun _ _ _ _ => .inr (.inl (.inr hn))
  · rw [hv.same.task]
    exact insertStep_pending x g.pending

lemma explored_insertOutOfScope {b'' : ActionGraphBuilder A} (hsc : x.shouldRunDependencies = false)
    (hw' : WellFormed env b') (hf : SetupFrame env (takeRecords x b) b')
    (hl : Links (ignoreDependencies x (addTask (x.node env.fxHash) b'))
      (x.node env.fxHash) (fun _ => False) b'') :
    Explored env plan ms (g.pending.atStep (insertStep x) x.task.target) b'' := by
  have hn : g.visit.node env.fxHash = x.node env.fxHash := hv.same.node_eq
  have htk := h.takeRecords hs.known hv.reached hv.same
    (g.pending.le_atStep (insertStep x) x.task.target)
    (fun hh => by simp [hadIgnoredDependencies, hsc] at hh)
    (fun hh => insertStep_dependents x g.pending (Bool.and_eq_true_iff.mp hh).1)
  have hlk (t : Target) : b''.ignoredDependencies.lookup t =
      if t = x.task.target ∧ x.task.deps ≠ [] then some (x.task.deps.map (·.target))
      else (takeRecords x b).ignoredDependencies.lookup t := by
    rw [hl.lookup_ignoring]
    change (if _ then _ else b'.ignoredDependencies.lookup t) = _
    rw [hf.rest]
  have hr : b''.ignoredDependents = (takeRecords x b).ignoredDependents ∧
      b''.passthroughTargets = b.passthroughTargets ∧ b''.affected = b'.affected := by
    rw [hl.rest]
    unfold ignoreDependencies addTask
    rw [hf.rest]
    split_ifs <;> exact ⟨rfl, rfl, rfl⟩
  apply htk.insert hrn
  · rw [hr.2.2]
    exact hs.marks_of_frame hf h.marked
  · intro n
    rw [hl.hasNode_ignoring, hasNode_addTask, hf.hasNode_iff, hn]
  · intro n m
    rw [hl.hasRequirement_ignoring, hw'.hasRequirement_addTask, hf.hasRequirement_iff]
  · exact hr.2.1
  · intro t hrc
    rw [hlk]
    split_ifs
    · rfl
    · exact hrc
  · intro _ _ hde
    have hrq := hv.reached.reqs_eq
    rw [hv.same.reqs] at hrq
    unfold TaskVisit.shouldRunDependencies at hsc
    rw [hrq] at hsc
    simp [hde, UpstreamScope.isInScope] at hsc
  · exact hr.1
  · intro c hc _ heq
    have ht : c.task = x.task := by
      rw [← hv.same.task]
      exact hc.reached.task_eq hs.known hv.reached (congrArg RunTaskNode.target heq)
    by_cases hd : x.task.deps = []
    · refine .inr (.inr ?_)
      simp [dependencyChildren, dependencyVisits, ht, hd]
    · refine .inl ?_
      rw [hlk, ht, if_pos ⟨rfl, hd⟩]
      rfl
  · rw [hv.same.task]
    exact insertStep_pending x g.pending

end

lemma dependenciesCovered_of_links
    (hk : ∀ k, plan.requested k → Known env k) (hv : AtVisit env plan g x)
    (hdn : ∀ dep ∈ dependencyVisits env x, atDepthOne dep ∈ Covered env plan p b)
    (ht : ∀ dep ∈ dependencyVisits env x, ts (dep.node env.fxHash) ∨ dep.isPassthrough)
    (hl : Links b (x.node env.fxHash) ts b') (c : TaskVisit) (hc : Runs env plan c)
    (heq : c.node env.fxHash = x.node env.fxHash) :
    DependenciesCovered env b' (Covered env plan p b) c := by
  have hts : c.task = g.visit.task := by
    apply hc.reached.task_eq hk hv.reached
    rw [hv.same.task]
    exact congrArg RunTaskNode.target heq
  intro child hch
  rw [hc.reached.dependencyChildren_eq hv.reached hts] at hch
  obtain ⟨dep, hd, rfl⟩ := hv.same.mem_dependencyChildren.mp hch
  refine ⟨hdn dep hd, fun hr => ?_⟩
  rw [heq, hl.hasRequirement]
  refine .inr ⟨rfl, (ht dep hd).resolve_right ?_⟩
  intro hp
  rw [show (atDepthOne dep).isPassthrough = dep.isPassthrough from rfl, hp] at hr
  cases hr

lemma AtVisit.dependency (h : AtVisit env plan g x) (hr : Runs env plan g.visit)
    (hs : x.shouldRunDependencies) (hd : dep ∈ dependencyVisits env x) :
    AtVisit env plan ⟨atDepthOne dep, p⟩ dep := by
  obtain ⟨k, ht, hvs⟩ := h.visited
  have hv : dep.state.viaDependency := by
    obtain ⟨config, -, depTask, -, rfl⟩ := mem_dependencyVisits hd
    rfl
  refine ⟨?_, same_of_dependency hs hd, ⟨k, ht, ?_⟩, fun _ _ => hv⟩
  · exact h.reached.dependency hr.takes hr.runs (by rw [h.same.dependencies, hs])
      (h.same.mem_dependencyChildren.mpr ⟨dep, hd, rfl⟩)
  · exact hvs.dependency (by rw [← h.same.isPassthrough_eq, hr.runs]) hs hd

lemma AtVisit.dependent (h : AtVisit env plan g x) (hst : Settled env plan ms)
    (htk : Takes plan g.visit) (hs : x.shouldRunDependents) (hd : dep ∈ dependentVisits env x) :
    AtVisit env plan ⟨atDepthOne dep, g.pending.expanding x.task.target⟩ dep := by
  obtain ⟨k, ht, hv⟩ := h.visited
  have hr : x.reqs = { plan.reqs with skipAffected := x.reqs.skipAffected } := by
    have hr := h.reached.reqs_eq
    rwa [h.same.reqs] at hr
  refine ⟨?_, same_of_dependent hs ?_ hd, ⟨k, ht, hv.dependent hs hd⟩, ?_⟩
  · exact h.reached.dependent htk (by rw [h.same.dependents, hs])
      (h.same.mem_dependentChildren.mpr ⟨dep, hd, rfl⟩)
  · rw [hr]
    exact fun hdr hdp => hst.depth hdr hdp k x ht hv
  · intro t hi
    have hvi := h.via t hi
    simp [TaskVisit.shouldRunDependents, hvi] at hs

lemma AtVisit.finish (hs : Settled env plan ms) (h : AtVisit env plan g x)
    (hdn : ∀ dep ∈ dependentVisits env x, atDepthOne dep ∈
      Covered env plan (g.pending.expanding x.task.target) b) (c : TaskVisit)
    (hc : Reached env plan c) (ht : c.task.target = x.task.target) :
    ∀ ch ∈ dependentChildren env c,
      ch ∈ Covered env plan (g.pending.expanding x.task.target) b := by
  intro ch hch
  have hts : c.task = g.visit.task := by
    apply hc.task_eq hs.known h.reached
    rw [ht, h.same.task]
  rw [hc.dependentChildren_eq h.reached hts] at hch
  obtain ⟨dep, hd, rfl⟩ := h.same.mem_dependentChildren.mp hch
  exact hdn dep hd

lemma Ordered.advances (h : Ordered b n e b') : Advances b b' := by
  apply Advances.of_congr _ h.hasRequirement
  · rw [h.rest]
  · intro n
    unfold HasNode
    rw [h.nodes]

lemma Explored.ordered (hex : Explored env plan ms p b)
    (h : Ordered b n e b') : Explored env plan ms p b' := by
  apply hex.congr _ _ h.hasRequirement
  · rw [h.rest]
  · rw [h.rest]
  · rw [h.rest]
  · rw [h.rest]
    exact hex.marked
  · intro n
    unfold HasNode
    rw [h.nodes]

lemma checked_explored (hst : Settled env plan ms) {a : Bool}
    (hv : AtVisit env plan g x) (h : Explored env plan ms g.pending b)
    (hr : (isTaskAffected env x.task x.reqs).run b = .ok a b')
    (hrs : b' = { b with affected := b'.affected }) :
    Explored env plan ms g.pending b' ∧ (a ↔ Takes plan g.visit) := by
  have hc (hm : ms b'.affected) : Explored env plan ms g.pending b' := by
    apply h.congr hm
    all_goals rw [hrs]
    · exact fun _ => Iff.rfl
    · exact fun _ _ => Iff.rfl
  by_cases hs : x.reqs.skipAffected
  · obtain ⟨ha, rfl⟩ := isTaskAffected_of_skip hs hr
    exact ⟨h, fun _ => .inl (by rw [hv.same.reqs, hs]), fun _ => ha⟩
  · rw [← hv.same.task, ← hv.same.reqs] at hr
    rw [← hv.same.reqs] at hs
    obtain ⟨ha, hm⟩ := hst.task g.visit b a b' hv.reached (by simpa using hs) h.marked hr
    refine ⟨hc hm, ?_⟩
    unfold Takes
    simp [ha, hs]

section

variable (hs : Settled env plan ms)
include hs

lemma orderOutline_starts : (orderOutline env plan ms).Starts env where
  failed _ _ := trivial
  checked g x b a b' _ hpr hru hrs := by
    obtain ⟨hv, hex⟩ := hpr
    obtain ⟨he', han⟩ := checked_explored hs hv hex hru hrs
    cases a with
    | true => exact ⟨hv, han.mp rfl, he'⟩
    | false =>
      have htk : ¬ Takes plan g.visit := fun htk => by cases han.mpr htk
      exact ⟨he', mem_covered_iff.mpr ⟨hv.reached, fun h => absurd h htk,
        fun h => absurd h htk, fun h => absurd h htk, fun h => absurd h htk⟩,
        fun h => absurd h htk⟩
  skipped g x b hrd ht := by
    obtain ⟨hv, htk, hex⟩ := hrd
    rw [← hv.same.task] at ht
    obtain ⟨c, hc, hct⟩ := hex.passed _ ht
    have hp : Passes env plan g.visit := by
      refine ⟨hv.reached, htk, ?_⟩
      rw [hv.reached.isPassthrough_eq hc.reached
        (hv.reached.task_eq hs.known hc.reached hct.symm), hc.passes]
    refine ⟨hex, mem_covered_of_passes hp ht (fun hsc => ?_), fun _ => ?_⟩
    · exact hex.passedDependents g.visit hp hsc ht
    · rw [← hv.same.isPassthrough_eq, hp.passes]
      simp
  passed g x b hrd _ hps := by
    obtain ⟨hv, htk, hex⟩ := hrd
    have hp : Passes env plan g.visit := ⟨hv.reached, htk, by rw [hv.same.isPassthrough_eq, hps]⟩
    have ht : g.visit.task.target ∈ (passThrough x b).passthroughTargets := by
      rw [hv.same.task]
      exact mem_insert_self
    cases hsc : x.shouldRunDependents with
    | true =>
      refine ⟨hv, htk, hsc, by simp [hps], ?_, ?_, by simp⟩
      · exact hex.passThrough hp hv.same (Pending.le_expanding _ _) (fun _ _ _ _ => .inr rfl)
      · apply mem_covered_of_passes hp ht
        rw [hv.same.task]
        exact fun _ => .inl (.inr rfl)
    | false =>
      have hot : g.visit.shouldRunDependents = false := by rw [hv.same.dependents, hsc]
      refine ⟨?_, ?_, by simp [hps]⟩
      · apply hex.passThrough hp hv.same (.refl _)
        intro c hc hcs ht
        rw [hs.passes c g.visit hc hp (by rw [ht, hv.same.task]), hot] at hcs
        cases hcs
      · apply mem_covered_of_passes hp ht
        simp [hot]

lemma orderOutline_revisits : (orderOutline env plan ms).Revisits env where
  revisited g x b _ hrd _ hps hmem := by
    obtain ⟨hv, htk, hex⟩ := hrd
    have hrn := hv.runs htk hps
    have hnd : HasNode b (g.visit.node env.fxHash) := by rwa [hv.same.node_eq]
    have hn' : HasNode (takeRecords x b) (g.visit.node env.fxHash) := hnd
    have hdp := revisit_dependents hv hrn hex hnd
    have hg := (grows_takeRecords x b).advances
    cases hh : hadIgnoredDependencies x b with
    | true =>
      have hle : g.pending.Le ((g.pending.atStep (revisitStep x b) x.task.target).atNode
          (x.node env.fxHash)) := (g.pending.le_atStep _ _).trans (Pending.le_atNode _ _)
      refine ⟨hv, hrn, (Bool.and_eq_true_iff.mp hh).1, revisitStep_expand x b, ?_, ?_, by simp⟩
      · exact hex.takeRecords hs.known hv.reached hv.same hle
          (fun _ => .inr rfl) (hadIgnoredDependents_step x b g.pending)
      · refine mem_covered_of_runs hrn hn' (fun _ => .inl (.inr hv.same.node_eq)) ?_
        intro hsc
        exact (hdp hsc).imp id (fun ha ch hch =>
          covered_mono hg hle.nodes hle.dependents (ha ch hch))
    | false =>
      have hle := g.pending.le_atStep (revisitStep x b) x.task.target
      have hcovered : Covered env plan g.pending b ⊆ Covered env plan
          (g.pending.atStep (revisitStep x b) x.task.target) (takeRecords x b) :=
        covered_mono hg hle.nodes hle.dependents
      refine ⟨hv, hrn, revisitStep_expand x b, ?_, ?_⟩
      · apply hex.takeRecords hs.known hv.reached hv.same hle _
          (hadIgnoredDependents_step x b g.pending)
        simp [hh]
      · apply mem_covered_of_runs hrn hn'
        · intro hsc
          rcases hex.dependencies g.visit hrn hsc hnd with hrc | hrs
          · rw [hv.same.dependencies] at hsc
            rw [hv.same.task] at hrc
            simp [hadIgnoredDependencies, hsc, hrc] at hh
          · exact hrs.imp (hle.nodes _) (.mono hg hcovered)
        · intro hsc
          exact (hdp hsc).imp id (fun ha ch hch =>
            hcovered (ha ch hch))

lemma orderOutline_inserts : (orderOutline env plan ms).Inserts env where
  inserted g x b b' _ hw' hrd _ hps _ hfr := by
    obtain ⟨hv, htk, hex⟩ := hrd
    have hrn := hv.runs htk hps
    have hdp (hsc : g.visit.shouldRunDependents) :
        (g.pending.atStep (insertStep x) x.task.target).dependents g.visit.task.target := by
      rw [hv.same.task]
      exact insertStep_dependents x g.pending (by rw [← hv.same.dependents, hsc])
    cases hsc : x.shouldRunDependencies with
    | true =>
      refine ⟨hv, hrn, hsc, insertStep_expand x,
        explored_insertInScope hs hv hrn hex hw' hfr, ?_, by simp⟩
      apply mem_covered_of_runs hrn
      · rw [hv.same.node_eq, hasNode_addTask]
        exact .inr rfl
      · exact fun _ => .inl (.inr hv.same.node_eq)
      · exact fun hsc => .inl (hdp hsc)
    | false =>
      intro b'' hl
      refine ⟨hv, hrn, insertStep_expand x, explored_insertOutOfScope hs hv hrn
        hex hsc hw' hfr hl, ?_⟩
      apply mem_covered_of_runs hrn
      · rw [hv.same.node_eq, hl.hasNode_ignoring, hasNode_addTask]
        exact .inr rfl
      · intro hvs
        rw [hv.same.dependencies, hsc] at hvs
        cases hvs
      · exact fun hsc => .inl (hdp hsc)

lemma orderOutline_expands : (orderOutline env plan ms).Expands env where
  dependency g x step d dep rest hsp b _ hb := by
    obtain ⟨hv, hrn, hsc, hst, hex, hcovered, hdn⟩ := hb
    have hd : dep ∈ dependencyVisits env x := by
      rw [hsp]
      simp
    refine ⟨⟨atDepthOne dep, (g.pending.atStep step x.task.target).atNode (x.node env.fxHash)⟩,
      ⟨hv.dependency hrn hsc hd, hex⟩, ?_⟩
    intro r b' _ hg _ hen
    obtain ⟨he', hc', hr⟩ := hen
    have hm := hg.advances.covered_subset env plan
      ((g.pending.atStep step x.task.target).atNode (x.node env.fxHash))
    refine ⟨⟨hv, hrn, hsc, hst, he', hm hcovered, ?_⟩, hr (takes_of_dependencyChildren
        (hv.same.mem_dependencyChildren.mpr ⟨dep, hd, rfl⟩))⟩
    intro o ho
    rcases mem_append.mp ho with hol | hnw
    · exact hm (hdn o hol)
    · rw [mem_singleton.mp hnw]
      exact hc'
  serial g x step d dep rest hsp _ e _ b b' _ hb hor := by
    obtain ⟨hv, hrn, hsc, hst, hex, hcovered, hdn⟩ := hb
    have hm := hor.advances.covered_subset env plan
      ((g.pending.atStep step x.task.target).atNode (x.node env.fxHash))
    exact ⟨hv, hrn, hsc, hst, hex.ordered hor, hm hcovered, fun o ho => hm (hdn o ho)⟩
  link g x step b b' ts _ hb _ hfct htg _ hl := by
    obtain ⟨hv, hrn, hsc, hst, hex, hcovered, hdn⟩ := hb
    have had : Advances b b' := by
      refine ⟨fun n hn => ?_, fun n m hnm => (hl.hasRequirement n m).mpr (.inl hnm), ?_⟩
      · unfold HasNode
        rwa [hl.nodes]
      · rw [hl.rest]
        exact List.Subset.refl _
    have ha := dependenciesCovered_of_links hs.known hv hdn
      (fun dep hd => (htg dep hd).imp id (fun hf => hf.mp rfl)) hl
    refine ⟨hv, hrn, hst, hex.link ?_ had ?_ ?_ ?_ ?_ ?_ ha, covered_link had ha hcovered⟩
    · rw [hl.rest]
      exact hex.marked
    · intro n hn
      unfold HasNode at hn
      rwa [hl.nodes] at hn
    · intro n m h
      apply ((hl.hasRequirement n m).mp h).imp id
      rintro ⟨rfl, ht⟩
      obtain ⟨dep, hd, rfl, i, hf⟩ := hfct m ht
      refine ⟨g.visit, hrn, by rw [hv.same.dependencies, hsc], hv.same.node_eq.symm,
        atDepthOne dep, hv.same.mem_dependencyChildren.mpr ⟨dep, hd, rfl⟩, ?_, rfl⟩
      change dep.isPassthrough = false
      by_contra hps
      cases hf.mpr (by simpa using hps)
    all_goals rw [hl.rest]
  cycle _ _ _ _ _ _ _ _ _ _ := trivial

lemma orderOutline_reports : (orderOutline env plan ms).Reports env where
  reported g x step i b _ hb _ := by
    obtain ⟨hv, hrn, hst, hex, hcovered⟩ := hb
    have hr : (some i = none ↔ x.isPassthrough) := by
      rw [← hv.same.isPassthrough_eq, hrn.runs]
      simp
    cases step with
    | expand => exact ⟨hv, hrn.takes, hst rfl, hr, hex, hcovered, by simp⟩
    | ignore =>
      exact ⟨hex.ignoreDependents, covered_ignoreDependents hcovered, fun _ => hr⟩
    | keep => exact ⟨hex, hcovered, fun _ => hr⟩
  dependent g x r d dep rest hsp b _ hb := by
    obtain ⟨hv, htk, hsc, hr, hex, hcovered, hdn⟩ := hb
    have hd : dep ∈ dependentVisits env x := by
      rw [hsp]
      simp
    refine ⟨⟨atDepthOne dep, g.pending.expanding x.task.target⟩,
      ⟨hv.dependent hs htk hsc hd, hex⟩, ?_⟩
    intro r' b' _ hg hen
    obtain ⟨he', hc', -⟩ := hen
    have hm := hg.advances.covered_subset env plan (g.pending.expanding x.task.target)
    refine ⟨hv, htk, hsc, hr, he', hm hcovered, ?_⟩
    intro o ho
    rcases mem_append.mp ho with hol | hnw
    · exact hm (hdn o hol)
    · rw [mem_singleton.mp hnw]
      exact hc'
  finished g x r b _ hb := by
    obtain ⟨hv, -, -, hr, hex, hcovered, hdn⟩ := hb
    have ha := hv.finish hs hdn
    exact ⟨hex.finish ha, covered_finish ha hcovered, fun _ => hr⟩
  mono _ _ _ _ _ hf := hf

theorem orderOutline_valid : (orderOutline env plan ms).Valid env where
  toStarts := orderOutline_starts hs
  toRevisits := orderOutline_revisits hs
  toInserts := orderOutline_inserts hs
  toExpands := orderOutline_expands hs
  toReports := orderOutline_reports hs

end

end

section

variable {env : BuilderEnv A} {plan : RunPlan} {ms : Option A → Prop}

lemma explored_new {a : Option A} (h : ms a) : Explored env plan ms {} { affected := a } := by
  constructor
  case marked => exact h
  all_goals simp [HasNode, HasRequirement, Linked, ActionGraph.empty]

structure CoversTasks (env : BuilderEnv A) (plan : RunPlan) (marks : Option A → Prop)
    (done : List Task) (b : ActionGraphBuilder A) : Prop where
  wellFormed : WellFormed env b
  explored : Explored env plan marks {} b
  covered : ∀ task ∈ done, { task := task, reqs := plan.reqs } ∈ Covered env plan {} b

lemma runTask_covers (hs : Settled env plan ms) (f : Nat) (d : List Task)
    {k : Task} (hr : plan.requested k) :
    Triple (CoversTasks env plan ms d) (runTask env f k plan.reqs)
      (fun _ => CoversTasks env plan ms (d ++ [k])) (fun _ _ => True) := by
  intro b hb
  have hv : AtVisit env plan ⟨{ task := k, reqs := plan.reqs }, {}⟩
      { task := k, reqs := plan.reqs } :=
    ⟨.request hr, .refl _, ⟨k, hr, .call⟩, fun _ h => h.elim⟩
  refine ((orderOutline_valid hs).runTask f hb.wellFormed ⟨hv, hb.explored⟩).post ?_ b rfl
  rintro r b' ⟨b₁, hen, hb'⟩
  obtain ⟨he₁, hc₁, -⟩ := hen.post
  have ha : Advances b₁ b' := by
    rw [hb']
    exact ⟨fun _ => id, fun _ _ => id, List.Subset.refl _⟩
  have hk := ha.covered_subset env plan {}
  constructor
  · rw [hb']
    exact hen.wellFormed.congr rfl rfl rfl
  · rw [hb']
    exact he₁.congr he₁.marked (fun _ => Iff.rfl) (fun _ _ => Iff.rfl) rfl rfl rfl
  · intro o ho
    rcases mem_append.mp ho with hol | hn
    · exact hk (hen.grows.advances.covered_subset env plan {} (hb.covered o hol))
    · rw [mem_singleton.mp hn]
      exact hk hc₁

section

variable {b : ActionGraphBuilder A} (h : Explored env plan ms {} b)
  (hcovered : ∀ k, plan.requested k → { task := k, reqs := plan.reqs } ∈ Covered env plan {} b)
include h hcovered

lemma Explored.hasNode_iff (n : RunTaskNode) :
    HasNode b n ↔ ∃ v, Runs env plan v ∧ n = v.node env.fxHash := by
  refine ⟨h.nodes n, ?_⟩
  rintro ⟨v, hr, rfl⟩
  exact (mem_covered_iff.mp (hr.reached.mem_covered hcovered)).node hr.takes hr.runs

lemma Explored.hasRequirement_iff (n m : RunTaskNode) :
    HasRequirement b n m ↔ ∃ v, Runs env plan v ∧
      v.shouldRunDependencies ∧ n = v.node env.fxHash ∧
      ∃ child ∈ dependencyChildren env v, child.isPassthrough = false ∧
        m = child.node env.fxHash := by
  refine ⟨h.requirements n m, ?_⟩
  rintro ⟨v, hr, hs, rfl, child, hch, hc, rfl⟩
  have hn := mem_covered_iff.mp (hr.reached.mem_covered hcovered)
  have ha := (hn.dependencies hr.takes hr.runs hs).resolve_left id
  exact (ha child hch).2 hc

end

end

end Moon.Proofs.Builder
