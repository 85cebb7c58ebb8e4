import Moon.Proofs.Builder.Fuel
import Moon.Proofs.Builder.Order

/-! # The closure of the requested tasks -/

namespace Moon.Proofs.Builder

open Moon.Lib ActionGraphBuilder List TaskVisit

variable {A : Type}

def Needed (env : BuilderEnv A) (tasks : List Task) (target : Target) : Prop :=
  ∃ source, (∃ task ∈ tasks, Relation.ReflTransGen (Requires env) source task.target) ∧
    Relation.ReflTransGen (Requires env) source target

def openPlan (reqs : RunRequirements) (tasks : List Task) : RunPlan where
  reqs := reqs
  requested k := k ∈ tasks
  affected _ := true

/-- All dependencies and dependents are in scope. -/
structure Deep (reqs : RunRequirements) : Prop where
  dependencies : reqs.dependencies = .deep
  dependents : reqs.dependents = .deep
  ciCheck : reqs.ciCheck = false

section

variable {env : BuilderEnv A} {reqs : RunRequirements} {ts : List Task} {v : TaskVisit}

lemma Reached.deep (hd : Deep reqs) (h : Reached env (openPlan reqs ts) v) : Deep v.reqs := by
  rw [h.reqs_eq]
  exact ⟨hd.dependencies, hd.dependents, hd.ciCheck⟩

lemma Deep.shouldRunDependencies (h : Deep v.reqs) : v.shouldRunDependencies := by
  unfold TaskVisit.shouldRunDependencies
  rw [h.dependencies]
  rfl

lemma Deep.shouldRunDependents (h : Deep v.reqs) :
    v.shouldRunDependents = !v.state.viaDependency := by
  unfold TaskVisit.shouldRunDependents
  rw [h.dependents]
  simp [DownstreamScope.isInScope]

lemma Deep.isPassthrough (h : Deep v.reqs) : v.isPassthrough = false := by
  unfold TaskVisit.isPassthrough
  rw [h.ciCheck]
  rfl

lemma Reached.runs (hd : Deep reqs) (h : Reached env (openPlan reqs ts) v) :
    Runs env (openPlan reqs ts) v :=
  ⟨h, .inr rfl, (h.deep hd).isPassthrough⟩

lemma Reached.needed (hm : DependentsMatch env) (hk : ∀ k ∈ ts, Known env k)
    (h : Reached env (openPlan reqs ts) v) :
    Needed env ts v.task.target ∧ (v.state.viaDependency = false →
      ∃ k ∈ ts, Relation.ReflTransGen (Requires env) v.task.target k.target) := by
  induction h with
  | @request k ht => exact ⟨⟨k.target, ⟨k, ht, .refl⟩, .refl⟩, fun _ =>
      ⟨k, ht, .refl⟩⟩
  | @dependency v c h _ _ _ hc ih =>
    have hvs := h.known hk
    obtain ⟨⟨s, hsr, hp⟩, -⟩ := ih
    obtain ⟨config, hcf, d, hdt, rfl⟩ := mem_dependencyChildren hc
    have hr : Requires env v.task.target d.target := ⟨v.task, config, d, hvs, hcf, hdt, rfl⟩
    exact ⟨⟨s, hsr, hp.tail hr⟩, fun hv => by cases hv⟩
  | @dependent v c h _ hs hc ih =>
    have hv : v.state.viaDependency = false := by
      unfold shouldRunDependents at hs
      simpa using (Bool.and_eq_true_iff.mp hs).1
    obtain ⟨k, ht, hp⟩ := ih.2 hv
    obtain ⟨t, htg, d, hdt, rfl⟩ := mem_dependentChildren hc
    have hr : Requires env d.target v.task.target :=
      (hm v.task (h.known hk) _).mp ⟨t, htg, d, hdt, rfl⟩
    have hd : ∃ k ∈ ts, Relation.ReflTransGen (Requires env) d.target k.target :=
      ⟨k, ht, .head hr hp⟩
    exact ⟨⟨d.target, hd, .refl⟩, fun _ => hd⟩

lemma exists_reached_dependent (hdp : Deep reqs) (hm : DependentsMatch env)
    (hk : ∀ k ∈ ts, Known env k) {s : Target} {k : Task} (ht : k ∈ ts)
    (hp : Relation.ReflTransGen (Requires env) s k.target) :
    ∃ v, Reached env (openPlan reqs ts) v ∧ v.task.target = s ∧ v.state.viaDependency = false := by
  induction hp using Relation.ReflTransGen.head_induction_on with
  | refl => exact ⟨{ task := k, reqs := reqs }, .request ht, rfl, rfl⟩
  | @head s next hr _ ih =>
    obtain ⟨v, hv, rfl, hvi⟩ := ih
    obtain ⟨dependent, hd, d, hdt, rfl⟩ := (hm v.task (hv.known hk) s).mpr hr
    have hs : v.shouldRunDependents := by
      rw [(hv.deep hdp).shouldRunDependents, hvi]
      rfl
    have hc : atDepthOne (v.dependent d) ∈ dependentChildren env v :=
      mem_map_of_mem (mem_flatMap.mpr ⟨dependent, hd, mem_map_of_mem hdt⟩)
    exact ⟨_, .dependent hv (.inr rfl) hs hc, rfl, rfl⟩

lemma exists_dependencyChild (hk : Known env v.task) {t : Target}
    (h : Requires env v.task.target t) : ∃ c ∈ dependencyChildren env v, c.task.target = t := by
  obtain ⟨k, config, d, hg, hc, hd, rfl⟩ := h
  unfold Known at hk
  rw [hk] at hg
  cases hg
  exact ⟨atDepthOne (v.dependency config d), mem_map_of_mem
    (mem_flatMap.mpr ⟨config, hc, mem_map_of_mem hd⟩), rfl⟩

lemma exists_reached_of_needed (hd : Deep reqs) (hm : DependentsMatch env)
    (hk : ∀ k ∈ ts, Known env k) {t : Target} (h : Needed env ts t) :
    ∃ v, Reached env (openPlan reqs ts) v ∧ v.task.target = t := by
  obtain ⟨source, ⟨k, hts, hs⟩, hp⟩ := h
  induction hp with
  | refl =>
    obtain ⟨v, hv, ht, -⟩ := exists_reached_dependent hd hm hk hts hs
    exact ⟨v, hv, ht⟩
  | tail _ hrq ih =>
    obtain ⟨v, hv, rfl⟩ := ih
    obtain ⟨c, hc, ht⟩ := exists_dependencyChild (hv.known hk) hrq
    have hr := hv.runs hd
    exact ⟨c, .dependency hv hr.takes hr.runs (hv.deep hd).shouldRunDependencies hc, ht⟩

end

/-- The tasks that this CI job runs. -/
def jobPart (reqs : RunRequirements) (tasks : List Task) : List Task :=
  match reqs.job, reqs.jobTotal with
  | some jobIndex, some jobTotal =>
    if jobTotal == 0 then tasks else jobSlice jobIndex jobTotal tasks
  | _, _ => tasks

/-- The targets of the graph are those that are needed, and every node has an edge for each
dependency of its task. -/
structure BuildsClosure (env : BuilderEnv A) (tasks : List Task) (b : ActionGraphBuilder A) :
    Prop where
  targets : ∀ target, (∃ n, HasNode b n ∧ n.target = target) ↔ Needed env tasks target
  edges : ∀ n target, HasNode b n → Requires env n.target target →
    ∃ m, HasEdge b n m ∧ m.target = target

section

variable {env : BuilderEnv A} {reqs : RunRequirements} {ts : List Task} {fuel : Nat}
  {b : ActionGraphBuilder A}

lemma jobPart_subset (reqs : RunRequirements) (ts : List Task) : jobPart reqs ts ⊆ ts := by
  unfold jobPart
  split
  · split_ifs
    · exact List.Subset.refl _
    · exact jobSlice_subset _ _ _
  · exact List.Subset.refl _

lemma settled_openPlan (hdp : Deep reqs) (hk : ∀ k ∈ ts, Known env k) :
    Settled env (openPlan reqs ts) (fun ms => ms = none) where
  known := hk
  task v b a b' _ hs hn hru := by
    rcases isTaskAffected_run_eq_ok hs hru with ⟨-, ha, rfl⟩ | ⟨ms, hm, -⟩
    · exact ⟨ha, hn⟩
    · rw [hn] at hm
      cases hm
  project before after hmr hn := by
    obtain ⟨project, ms, marks', hb, -, -⟩ := hmr
    rw [hn] at hb
    cases hb
  passes v _ hp := by
    have hr := (hp.reached.deep hdp).isPassthrough
    rw [hp.passes] at hr
    cases hr
  depth hd := by
    have hdpn : (openPlan reqs ts).reqs.dependencies = .deep := hdp.dependencies
    rw [hdpn] at hd
    cases hd

lemma runTask_noCycle (ha : Acyclic (Requires env)) (hd : reqs.dependencies = .deep)
    {k : Task} (hk : Known env k) (hw : WellFormed env b)
    (hrc : ∀ t, (b.ignoredDependencies.lookup t).isSome = false) :
    Triple (fun s => s = b) (runTask env fuel k reqs) (fun _ _ => True)
      (fun e _ => NoCycle env e) := by
  by_cases ht : Acyclic (ToolchainRequires env)
  · have hsf : SafeCall env b { task := k, reqs := reqs } := by
      intro v _ hi
      rcases hi with hr | ⟨o, ho, -, hs⟩
      · rw [hrc] at hr
        cases hr
      · unfold shouldRunDependencies at hs
        rw [ho.dependencies_eq, hd] at hs
        cases hs
    exact ((cycleOutline_valid ha ht hsf).runTask fuel hw
      (cycleState_start hk)).conseq (fun _ h => h) (fun _ _ _ => trivial) (fun _ _ h _ => h)
  · exact Triple.of_forall (fun _ _ => trivial) (fun _ _ h => absurd h ht)

lemma runEach_covers (ha : Acyclic (Requires env)) (hm : DependentsMatch env) (hd : Deep reqs)
    (hk : ∀ k ∈ ts, Known env k) (hf : callBound env ≤ fuel) :
    Triple (CoversTasks env (openPlan reqs ts) (fun ms => ms = none) []) (runEach env fuel reqs ts)
      (fun _ => CoversTasks env (openPlan reqs ts) (fun ms => ms = none) ts)
      (fun e _ => External env e) := by
  apply runEach_rule
  intro done k rest hs b hb
  have ht : k ∈ ts := by
    rw [hs]
    simp
  have hr (t : Target) : (b.ignoredDependencies.lookup t).isSome = false :=
    Bool.eq_false_iff.mpr (fun hrc =>
      hb.explored.ignored t hrc hd.dependencies)
  have hcv := runTask_covers (settled_openPlan hd hk) fuel done ht
  have hcm := runTask_completes ha hm hf (hk k ht) reqs
  have hc : Triple (fun s => s = b) (runTask env fuel k reqs) (fun _ _ => True)
      (fun e _ => NoCycle env e) :=
    runTask_noCycle ha hd.dependencies (hk k ht) hb.wellFormed hr
  refine ((hcv.and hcm).and hc).conseq (fun _ h => h) ?_ ?_ b ⟨⟨hb, trivial⟩, rfl⟩
  · exact fun _ _ h => h.1.1
  · rintro e _ ⟨⟨-, hex | hw⟩, hc⟩
    · exact hex
    · have htl : ¬ Acyclic (ToolchainRequires env) := by
        intro ha
        rw [hc ha] at hw
        cases hw
      cases e with
      | wouldCycle source t => exact .toolchains htl
      | _ => cases hw

lemma CoversTasks.buildsClosure (hd : Deep reqs) (hm : DependentsMatch env)
    (hk : ∀ k ∈ ts, Known env k)
    {ms : Option A → Prop} (h : CoversTasks env (openPlan reqs ts) ms ts b) :
    BuildsClosure env ts b := by
  have hnds := h.explored.hasNode_iff h.covered
  constructor
  · intro t
    constructor
    · rintro ⟨n, hn, rfl⟩
      obtain ⟨v, hr, rfl⟩ := (hnds n).mp hn
      exact (hr.reached.needed hm hk).1
    · intro hnd
      obtain ⟨v, hv, rfl⟩ := exists_reached_of_needed hd hm hk hnd
      exact ⟨v.node env.fxHash, (hnds _).mpr ⟨v, hv.runs hd, rfl⟩, rfl⟩
  · intro n t hn hrq
    obtain ⟨v, hr, rfl⟩ := (hnds n).mp hn
    have hs := (hr.reached.deep hd).shouldRunDependencies
    obtain ⟨c, hc, rfl⟩ := exists_dependencyChild (hr.reached.known hk) hrq
    have hrc := Reached.dependency hr.reached hr.takes hr.runs hs hc
    obtain ⟨i, depIndex, hi, hdpI, hme⟩ :=
      (h.explored.hasRequirement_iff h.covered _ _).mpr
        ⟨v, hr, hs, rfl, c, hc, (hrc.deep hd).isPassthrough, rfl⟩
    exact ⟨c.node env.fxHash, ⟨i, depIndex, hi, hdpI, h.wellFormed.requirements _ hme⟩, rfl⟩

lemma filterAffected_new (reqs : RunRequirements) (ts : List Task)
    {E : ActionGraphError → ActionGraphBuilder A → Prop} :
    Triple (fun b => b = {}) (filterAffected env reqs ts) (fun r b => r = ts ∧ b = {}) E := by
  induction ts with
  | nil => exact Triple.pure (fun _ hb => ⟨rfl, hb⟩)
  | cons k ts ih =>
    have hc : Triple (fun b => b = {}) (isTaskAffected env k reqs) (fun a b => a ∧ b = {}) E := by
      rintro b rfl
      exact ⟨rfl, rfl⟩
    unfold filterAffected
    apply Triple.bind_at hc
    rintro a b ⟨rfl, rfl⟩
    apply Triple.bind_at ih
    rintro r b ⟨rfl, rfl⟩
    exact Triple.pure (fun _ hb => ⟨rfl, hb⟩)

lemma partitionTasks_new (reqs : RunRequirements) (ts : List Task) :
    Triple (fun b => b = {}) (partitionTasks env reqs ts)
      (fun r b => r.1 = jobPart reqs ts ∧ b = {}) (fun e _ => External env e) := by
  unfold partitionTasks jobPart
  cases reqs.job with
  | none => exact Triple.pure (fun _ hb => ⟨rfl, hb⟩)
  | some jobIndex =>
    cases reqs.jobTotal with
    | none => exact Triple.pure (fun _ hb => ⟨rfl, hb⟩)
    | some jobTotal =>
      apply Triple.ite
      · intro hz
        exact Triple.pure (fun _ hb => ⟨by simp [hz], hb⟩)
      · intro hp
        apply Triple.ite
        · intro hi
          exact Triple.throw (fun _ _ => .job hi)
        · intro _
          have ha : Triple (fun b => b = {}) (jobTasks env reqs ts)
              (fun rest b => rest = ts ∧ b = {}) (fun e _ => External env e) :=
            Triple.ite (fun _ => Triple.pure (fun _ hb => ⟨rfl, hb⟩))
              (fun _ => filterAffected_new reqs ts)
          apply Triple.bind_at ha
          rintro rest b ⟨rfl, rfl⟩
          exact Triple.pure (fun _ hb => ⟨by simp [hp], hb⟩)

/-- With deep scopes, a call on a new builder builds the closure of the tasks that it runs, or
fails for a reason from outside. -/
theorem run_tasks_builds_closure (hacyclic : Acyclic (Requires env)) (hmatch : DependentsMatch env)
    (hdeep : Deep reqs) (locators : List TargetLocator) (hfuel : callBound env ≤ fuel) :
    Triple (fun b => b = {}) (runTasks env fuel locators reqs)
      (fun _ b => BuildsClosure env (jobPart reqs (requestedTasks env locators)) b)
      (fun e _ => External env e) := by
  unfold runTasks
  cases hl : locators.mapM (fun l =>
      env.workspace.resolveTasksFromTargetLocator env.allQuery l false) with
  | error error =>
    obtain ⟨l, -, hlc⟩ := exists_of_mapM_eq_error hl
    exact fun _ _ => .locator hlc
  | ok ls =>
    have hr : requestedTasks env locators = ls.flatten := by
      unfold requestedTasks
      rw [hl]
    rw [hr]
    have hk : ∀ k ∈ jobPart reqs ls.flatten, Known env k := by
      intro k hts
      apply mem_requestedTasks_known
      rw [hr]
      exact jobPart_subset _ _ hts
    have ht : Triple (fun b => b = {}) (trackRequested env reqs ls.flatten)
        (fun _ b => b = {}) (fun e _ => External env e) := by
      rintro b rfl
      rfl
    apply Triple.bind ht
    intro _
    apply Triple.bind_at (partitionTasks_new reqs ls.flatten)
    rintro ⟨ts, size⟩ b ⟨rfl, rfl⟩
    apply Triple.bind ((runEach_covers hacyclic hmatch hdeep hk hfuel).pre ?_)
    · intro targets
      exact Triple.pure (fun _ h => h.buildsClosure hdeep hmatch hk)
    · rintro b rfl
      exact ⟨wellFormed_new env none, explored_new rfl, by simp⟩

lemma dependentsMatch_of_tasks (h : ∀ k ∈ env.workspace.tasks, ∀ o ∈ env.workspace.tasks,
      (∃ dependent ∈ env.workspace.taskDependents k.target,
        ∃ d ∈ resolved env dependent, d.target = o.target) ↔
      ∃ dep ∈ o.deps, ∃ d ∈ resolved env dep.target, d.target = k.target) :
    DependentsMatch env := by
  intro k ht t
  have hm := (getTask_eq_ok ht).1
  constructor
  · rintro ⟨dependent, hdpn, d, hdt, rfl⟩
    have hdp := mem_resolved_known hdt
    obtain ⟨dep, hd, o, ho, heq⟩ := (h k hm d
      (getTask_eq_ok hdp).1).mp ⟨dependent, hdpn, d, hdt, rfl⟩
    exact ⟨d, dep, o, hdp, hd, ho, heq⟩
  · rintro ⟨o, dep, d, hg, hd, hdt, heq⟩
    obtain ⟨ho, rfl⟩ := getTask_eq_ok hg
    exact (h k hm o ho).mpr ⟨dep, hd, d, hdt, heq⟩

end

def auditTask : Task := { target := Target.new "app" "audit" }

def releaseTask : Task :=
  { target := Target.new "app" "release"
    deps := [{ target := buildTask.target }, { target := auditTask.target }] }

def manualTask : Task :=
  { target := Target.new "app" "manual", deps := [{ target := codegenTask.target }] }

def releaseWorkspace : WorkspaceGraph :=
  { projects := [{ id := "app" }]
    tasks := [codegenTask, buildTask, auditTask, releaseTask, manualTask]
    taskDependents := fun target =>
      if target = codegenTask.target then [buildTask.target, manualTask.target]
      else if target = buildTask.target then [releaseTask.target]
      else if target = auditTask.target then [releaseTask.target]
      else [] }

def releaseEnv : BuilderEnv AffectedMarks :=
  { workspace := releaseWorkspace, tracker := affectedTracker { workspace := releaseWorkspace } }

def nodeTargets (b : ActionGraphBuilder A) : List Target :=
  b.graph.nodes.filterMap (fun node => match node with
    | .runTask n => some n.target
    | _ => none)

/-- A call for `build` builds `release` and with it `audit`, but not `manual`. -/
theorem build_call_builds_closure :
    Acyclic (Requires releaseEnv) ∧ DependentsMatch releaseEnv ∧
      ∃ partition b, (runTasks releaseEnv (callBound releaseEnv) [.qualified buildTask.target]
          { dependents := .deep }).run {} = .ok partition b ∧
        BuildsClosure releaseEnv [buildTask] b ∧
        nodeTargets b =
          [buildTask.target, codegenTask.target, releaseTask.target, auditTask.target] := by
  have ha : Acyclic (Requires releaseEnv) := by
    apply acyclic_requires_of_rank (fun t =>
      if t = releaseTask.target then 2
      else if t = buildTask.target ∨ t = manualTask.target then 1
      else 0)
    decide
  have hm : DependentsMatch releaseEnv := by
    apply dependentsMatch_of_tasks
    decide
  obtain ⟨partition, b, hr, hn⟩ := exists_run_of_check (s := {})
    (x := runTasks releaseEnv (callBound releaseEnv) [.qualified buildTask.target]
      { dependents := .deep })
    (p := fun _ b => decide (nodeTargets b =
      [buildTask.target, codegenTask.target, releaseTask.target, auditTask.target]))
    (by decide +kernel)
  have hc := (run_tasks_builds_closure ha hm ⟨rfl, rfl, rfl⟩
    [.qualified buildTask.target] le_rfl).run_ok rfl hr
  exact ⟨ha, hm, partition, b, hr, hc, of_decide_eq_true hn⟩

end Moon.Proofs.Builder
