import Moon.Proofs.AffectedTracker
import Moon.Proofs.Builder.Order

/-! # Permutations of the requested targets -/

namespace Moon.Proofs.Builder

open Moon.Lib ActionGraphBuilder AffectedMarks

variable {b : ActionGraphBuilder AffectedMarks} {fuel : Nat} {partition : RunPartition}
  {locators' : List TargetLocator} {marks : Option AffectedMarks}

/-- What the call asks for, with the tasks that the marks affect. -/
def callPlan (env : BuilderEnv AffectedMarks) (config : AffectedTrackerConfig)
    (marks : Option AffectedMarks) (reqs : RunRequirements) (locators : List TargetLocator) :
    RunPlan where
  reqs := reqs
  requested t := t ∈ requestedTasks env locators
  affected t :=
    match marks with
    | none => true
    | some marks =>
      if reqs.includeRelations then
        match AffectedMarks.trackTasks config marks with
        | .ok tracked => tracked.isTaskMarked t
        | .error _ => false
      else directlyAffected config marks t

structure Answers (env : BuilderEnv AffectedMarks) (plan : RunPlan)
    (states : Option AffectedMarks → Prop) : Prop where
  task : ∀ visit b answer b', Reached env plan visit → visit.reqs.skipAffected = false →
    states b.affected → (isTaskAffected env visit.task visit.reqs).run b = .ok answer b' →
      answer = plan.affected visit.task ∧ states b'.affected
  project : ∀ before after, ProjectMark env before after → states before → states after

section

variable {env : BuilderEnv AffectedMarks} {config : AffectedTrackerConfig}
  {reqs : RunRequirements} {locators : List TargetLocator}

lemma callPlan_known (t : Task)
    (h : (callPlan env config marks reqs locators).requested t) : Known env t :=
  mem_requestedTasks_known h

lemma answers_without_tracker :
    Answers env (callPlan env config none reqs locators) (fun marks => marks = none) where
  task v b answer b' _ hs hn hr := by
    rcases isTaskAffected_run_eq_ok hs hr with ⟨-, ha, rfl⟩ | ⟨marks, hm, -⟩
    · exact ⟨ha, hn⟩
    · rw [hn] at hm
      cases hm
  project before a hmr hn := by
    obtain ⟨project, marks, ms', hb, -, -⟩ := hmr
    rw [hn] at hb
    cases hb

lemma answers_without_relations (htr : env.tracker = affectedTracker config)
    (hrl : reqs.includeRelations = false) (marks : AffectedMarks) :
    Answers env (callPlan env config (some marks) reqs locators) (fun state =>
      ∃ ms', state = some ms' ∧ ∀ t, Known env t →
        directlyAffected config ms' t = directlyAffected config marks t) where
  task v b answer b' hr hsk hst hrn := by
    have hk := hr.known callPlan_known
    have hp : (callPlan env config (some marks) reqs locators).affected v.task =
        directlyAffected config marks v.task := by
      simp [callPlan, hrl]
    have hrq : v.reqs.includeRelations = false := by
      rw [hr.reqs_eq]
      exact hrl
    obtain ⟨ms', hm', hs⟩ := hst
    rw [hp, ← hs _ hk]
    rcases isTaskAffected_run_eq_ok hsk hrn with ⟨hn, -, -⟩ | ⟨found, hf, hc⟩
    · rw [hm'] at hn
      cases hn
    rw [hm'] at hf
    cases hf
    rw [htr, hrq] at hc
    rcases hc with ⟨hm, rfl, rfl⟩ | ⟨-, ⟨hn, rfl, rfl⟩ | ⟨a, ha, rfl, hb'⟩⟩
    · refine ⟨?_, ms', hm', hs⟩
      have hd : directlyMarked ms'.tasks v.task.target := hm
      rw [directlyAffected_eq, hd]
      rfl
    · refine ⟨?_, ms', hm', hs⟩
      unfold directlyAffected
      rw [affectTask_eq_none hn]
    · have hkp (t : Task) (ht : Known env t) :
          directlyAffected config a t = directlyAffected config ms' t :=
        affectTask_directlyAffected ha (task_eq_of_target ht hk)
      refine ⟨?_, a, hb', fun t ht => (hkp t ht).trans (hs t ht)⟩
      rw [directlyAffected_eq]
      rcases affectTask_spec ha with ⟨hd, -⟩ | ⟨reason, -, ho, -⟩
      · simp [hd]
      · simp [directlyAffected, ho]
  project before a hmr hst := by
    obtain ⟨project, found, found', rfl, hf, rfl⟩ := hmr
    obtain ⟨ms', hm', hs⟩ := hst
    cases hm'
    rw [htr] at hf
    have hts : found'.tasks = found.tasks := affectProject_tasks hf
    refine ⟨found', rfl, fun t ht => ?_⟩
    rw [← hs t ht, directlyAffected_eq, directlyAffected_eq config found, hts]

lemma answers_with_relations (htr : env.tracker = affectedTracker config)
    (hw : config.workspace = env.workspace) (hrl : reqs.includeRelations)
    {marks t : AffectedMarks} (ht : trackTasks config marks = .ok t) :
    Answers env (callPlan env config (some marks) reqs locators) (fun state =>
      ∃ ms', state = some ms' ∧ ms'.tasks = t.tasks) where
  task v b answer b' hr hsk hs hrn := by
    have hk := hr.known callPlan_known
    have hp : (callPlan env config (some marks) reqs locators).affected v.task =
        t.isTaskMarked v.task := by
      simp [callPlan, hrl, ht]
    have hrq : v.reqs.includeRelations := by
      rw [hr.reqs_eq]
      exact hrl
    obtain ⟨ms', hm', hts⟩ := hs
    have hmrk : ms'.isTaskMarked v.task = t.isTaskMarked v.task := by
      unfold isTaskMarked
      rw [hts]
    rw [hp, ← hmrk]
    rcases isTaskAffected_run_eq_ok hsk hrn with ⟨hn, -, -⟩ | ⟨found, hf, hc⟩
    · rw [hm'] at hn
      cases hn
    rw [hm'] at hf
    cases hf
    rw [htr, hrq] at hc
    rcases hc with ⟨hm, rfl, rfl⟩ | ⟨hm, hch⟩
    · exact ⟨hm.symm, ms', hm', hts⟩
    · have hu : ms'.isTaskMarked v.task = false := hm
      have hn : isTaskAffected config ms' v.task = .ok none := by
        rw [isTaskAffected_eq, hts, ← isTaskAffected_eq config t]
        apply (trackTasks_spec ht (by rw [hw]; exact hk)).resolve_left
        rw [← hmrk, hu]
        simp
      rcases hch with ⟨-, rfl, rfl⟩ | ⟨a, ha, -, -⟩
      · exact ⟨hu.symm, ms', hm', hts⟩
      · obtain ⟨reason, hrs, ha⟩ := bind_eq_ok ha
        rw [hn] at hrs
        cases hrs
        cases ha
  project before a hmr hs := by
    obtain ⟨project, found, found', rfl, hf, rfl⟩ := hmr
    obtain ⟨ms', hm', hts⟩ := hs
    cases hm'
    rw [htr] at hf
    have hpr : found'.tasks = found.tasks := affectProject_tasks hf
    exact ⟨found', rfl, hpr.trans hts⟩

end

/-- The calls whose order of targets does not matter: not divided among jobs, with the tasks tracked
before they are run, no passthrough target reached in both scopes, and depths that do not wrap
around. -/
structure Orderly (env : BuilderEnv AffectedMarks) (config : AffectedTrackerConfig)
    (marks : Option AffectedMarks) (reqs : RunRequirements) (locators : List TargetLocator) :
    Prop where
  job : reqs.job = none ∨ reqs.jobTotal = none ∨ reqs.jobTotal = some 0
  tracked : marks = none ∨ reqs.skipAffected = false ∨ reqs.includeRelations = false ∨
    reqs.dependents = .none
  passes : ∀ visit other, Passes env (callPlan env config marks reqs locators) visit →
    Passes env (callPlan env config marks reqs locators) other →
    visit.task.target = other.task.target → visit.shouldRunDependents = other.shouldRunDependents
  depth : reqs.dependencies = .direct → reqs.dependents = .deep →
    ∀ task ∈ requestedTasks env locators, ∀ visit,
      Visited env { task := task, reqs := reqs } visit → visit.state.depth ≠ 255

section

variable {env : BuilderEnv AffectedMarks} {config : AffectedTrackerConfig}
  {reqs : RunRequirements} {locators : List TargetLocator}

lemma Answers.settled {ss : Option AffectedMarks → Prop}
    (h : Answers env (callPlan env config marks reqs locators) ss)
    (ho : Orderly env config marks reqs locators) :
    Settled env (callPlan env config marks reqs locators) ss where
  known := callPlan_known
  task := h.task
  project := h.project
  passes := ho.passes
  depth := fun hd hdp t x hr =>
    ho.depth hd hdp t hr x

lemma answers_skipped (hsk : reqs.skipAffected) (hd : reqs.dependents = .none) :
    Answers env (callPlan env config marks reqs locators) (fun _ => True) where
  task v b answer b' hr hs' _ _ := by
    have hskp : v.reqs.skipAffected := by
      induction hr with
      | request => exact hsk
      | dependency _ _ _ _ hc =>
        obtain ⟨config, -, depTask, -, rfl⟩ := mem_dependencyChildren hc
        rfl
      | dependent hp _ hs =>
        unfold TaskVisit.shouldRunDependents at hs
        rw [hp.reqs_eq] at hs
        have hn : (callPlan env config marks reqs locators).reqs.dependents = .none := hd
        simp [hn, DownstreamScope.isInScope] at hs
    rw [hskp] at hs'
    cases hs'
  project _ _ _ _ := trivial

lemma exists_settled (ht : env.tracker = affectedTracker config)
    (hw : config.workspace = env.workspace) (hor : Orderly env config marks reqs locators)
    (htrk : (trackRequested env reqs (requestedTasks env locators)).run
      { affected := marks } = .ok () b) :
    ∃ ss, Settled env (callPlan env config marks reqs locators) ss ∧ ss b.affected := by
  rcases trackRequested_run_eq_ok htrk with ⟨hn, rfl⟩ | ⟨found, hf, hc⟩
  · change marks = none at hn
    subst hn
    exact ⟨_, answers_without_tracker.settled hor, rfl⟩
  change marks = some found at hf
  subst hf
  cases hr : reqs.includeRelations with
  | false =>
    refine ⟨_, (answers_without_relations ht hr found).settled hor, ?_⟩
    rcases hc with ⟨-, rfl⟩ | ⟨-, found', hf', rfl⟩
    · exact ⟨found, rfl, fun _ _ => rfl⟩
    · refine ⟨found', rfl, fun t hts => ?_⟩
      rw [ht, hr] at hf'
      exact trackTasksByInstance_directlyAffected hf' (fun o ho =>
        task_eq_of_target hts (mem_requestedTasks_known ho))
  | true =>
    rcases hc with ⟨hs, rfl⟩ | ⟨-, found', hf', rfl⟩
    · have hd : reqs.dependents = .none := by
        rcases hor.tracked with h | h | h | h
        · cases h
        · rw [hs] at h
          cases h
        · rw [hr] at h
          cases h
        · exact h
      exact ⟨_, (answers_skipped hs hd).settled hor, trivial⟩
    · rw [ht, hr] at hf'
      exact ⟨_, (answers_with_relations ht hw hr hf').settled hor, found', rfl, rfl⟩

lemma runTasks_built (htr : env.tracker = affectedTracker config)
    (hw : config.workspace = env.workspace) (ho : Orderly env config marks reqs locators)
    (hr : (runTasks env fuel locators reqs).run { affected := marks } = .ok partition b) :
    ∃ ss, Explored env (callPlan env config marks reqs locators) ss {} b ∧
      ∀ t ∈ requestedTasks env locators, { task := t, reqs := reqs } ∈
          Covered env (callPlan env config marks reqs locators) {} b := by
  obtain ⟨-, b₁, targets, ht, hec⟩ := runTasks_run_eq_ok ho.job hr
  obtain ⟨ss, hst, hsts⟩ := exists_settled htr hw ho ht
  have hsm : SameButMarks { affected := marks } b₁ := by
    rcases trackRequested_run_eq_ok ht with ⟨-, rfl⟩ | ⟨_, -, ⟨-, rfl⟩ | ⟨-, _, -, rfl⟩⟩ <;>
      rfl
  have hstr : CoversTasks env (callPlan env config marks reqs locators) ss [] b₁ := by
    rw [hsm]
    exact ⟨wellFormed_new env _, explored_new hsts, by simp⟩
  have hl := runEach_rule (I := CoversTasks env (callPlan env config marks reqs locators) ss)
    (E := fun _ _ => True) (requestedTasks env locators) (fun done t rest hs =>
      runTask_covers hst fuel done (show t ∈ requestedTasks env locators by simp [hs]))
  have hc := hl.run_ok hstr hec
  exact ⟨ss, hc.explored, hc.covered⟩

/-- Orderly calls on new builders that request the same targets in different orders insert the
same tasks, and link them to the same dependencies. -/
theorem run_tasks_perm (htracker : env.tracker = affectedTracker config)
    (hworkspace : config.workspace = env.workspace)
    (horderly : Orderly env config marks reqs locators) (hperm : locators.Perm locators')
    {fuel' : Nat} {partition' : RunPartition} {b' : ActionGraphBuilder AffectedMarks}
    (hrun : (runTasks env fuel locators reqs).run { affected := marks } = .ok partition b)
    (h' : (runTasks env fuel' locators' reqs).run { affected := marks } = .ok partition' b') :
    (∀ n, HasNode b n ↔ HasNode b' n) ∧ ∀ n m, HasRequirement b n m ↔ HasRequirement b' n m := by
  have hr := (runTasks_run_eq_ok horderly.job hrun).1
  have hr' := (runTasks_run_eq_ok horderly.job h').1
  have hp : callPlan env config marks reqs locators' = callPlan env config marks reqs locators := by
    unfold callPlan
    congr 1
    funext t
    apply propext
    rw [mem_requestedTasks_iff hr, mem_requestedTasks_iff hr']
    simp only [hperm.mem_iff]
  have ho' : Orderly env config marks reqs locators' := by
    refine ⟨horderly.job, horderly.tracked, ?_, ?_⟩
    · rw [hp]
      exact horderly.passes
    · intro hd hdp t ht
      rw [mem_requestedTasks_iff hr'] at ht
      simp only [← hperm.mem_iff] at ht
      exact horderly.depth hd hdp t ((mem_requestedTasks_iff hr t).mpr ht)
  obtain ⟨ss, hex, hc⟩ := runTasks_built htracker hworkspace horderly hrun
  obtain ⟨states', he', hc'⟩ := runTasks_built htracker hworkspace ho' h'
  constructor
  · intro n
    rw [hex.hasNode_iff hc, he'.hasNode_iff hc', hp]
  · intro n m
    rw [hex.hasRequirement_iff hc, he'.hasRequirement_iff hc', hp]

/-- An orderly call on a new builder inserts the tasks of the visits that it runs, and links each
to what these visits require, and nothing else. -/
theorem run_tasks_builds_reached (htracker : env.tracker = affectedTracker config)
    (hworkspace : config.workspace = env.workspace)
    (horderly : Orderly env config marks reqs locators)
    (hrun : (runTasks env fuel locators reqs).run { affected := marks } = .ok partition b) :
    (∀ n, HasNode b n ↔
      ∃ v, Runs env (callPlan env config marks reqs locators) v ∧ n = v.node env.fxHash) ∧
    ∀ n m, HasRequirement b n m ↔ ∃ v, Runs env (callPlan env config marks reqs locators) v ∧
      v.shouldRunDependencies ∧ n = v.node env.fxHash ∧
      ∃ child ∈ dependencyChildren env v, child.isPassthrough = false ∧
        m = child.node env.fxHash := by
  obtain ⟨ss, hex, hc⟩ := runTasks_built htracker hworkspace horderly hrun
  exact ⟨hex.hasNode_iff hc, hex.hasRequirement_iff hc⟩

end

def OrderMatters (env : BuilderEnv AffectedMarks) (marks : Option AffectedMarks)
    (reqs : RunRequirements) (first second : Target) (n : RunTaskNode) : Prop :=
  ∃ partition p' b b',
    (runTasks env 10 [.qualified first, .qualified second] reqs).run { affected := marks } =
      .ok partition b ∧
    (runTasks env 10 [.qualified second, .qualified first] reqs).run { affected := marks } =
      .ok p' b' ∧
    HasNode b n ∧ ¬ HasNode b' n

lemma orderMatters_of_check {env : BuilderEnv AffectedMarks}
    {reqs : RunRequirements} {f s : Target} {n : RunTaskNode}
    (h : checkRun (runTasks env 10 [.qualified f, .qualified s] reqs)
      { affected := marks } (fun _ b => decide (HasNode b n)))
    (h' : checkRun (runTasks env 10 [.qualified s, .qualified f] reqs)
      { affected := marks } (fun _ b => decide (¬ HasNode b n))) :
    OrderMatters env marks reqs f s n := by
  obtain ⟨partition, b, hr, hn⟩ := exists_run_of_check h
  obtain ⟨p', b', hr', hn'⟩ := exists_run_of_check h'
  exact ⟨partition, p', b, b', hr, hr', of_decide_eq_true hn, of_decide_eq_true hn'⟩

def lintTask : Task := { target := Target.new "app" "lint" }

def formatTask : Task := { target := Target.new "app" "format" }

def lintWorkspace : WorkspaceGraph :=
  { projects := [{ id := "app" }], tasks := [lintTask, formatTask] }

def lintEnv : BuilderEnv AffectedMarks :=
  { workspace := lintWorkspace, tracker := affectedTracker { workspace := lintWorkspace } }

def setupTask : Task :=
  { target := Target.new "app" "setup", options := { runInCI := .enabled false } }

def serveTask : Task :=
  { target := Target.new "app" "serve", deps := [{ target := setupTask.target }] }

def docsTask : Task :=
  { target := Target.new "app" "docs", deps := [{ target := setupTask.target }] }

def serveWorkspace : WorkspaceGraph :=
  { projects := [{ id := "app" }]
    tasks := [setupTask, serveTask, docsTask]
    taskDependents := fun target =>
      if target = setupTask.target then [serveTask.target, docsTask.target] else [] }

def serveEnv : BuilderEnv AffectedMarks :=
  { workspace := serveWorkspace, tracker := affectedTracker { workspace := serveWorkspace } }

def schemaTask : Task :=
  { target := Target.new "app" "schema", deps := [{ target := formatTask.target }] }

def clientTask : Task :=
  { target := Target.new "app" "client"
    deps := [{ target := lintTask.target }, { target := schemaTask.target }] }

def clientWorkspace : WorkspaceGraph :=
  { projects := [{ id := "app" }]
    tasks := [lintTask, formatTask, schemaTask, clientTask]
    taskDependents := fun target =>
      if target = lintTask.target then [clientTask.target]
      else if target = formatTask.target then [schemaTask.target]
      else if target = schemaTask.target then [clientTask.target]
      else [] }

def clientEnv : BuilderEnv AffectedMarks :=
  { workspace := clientWorkspace
    tracker := affectedTracker
      { workspace := clientWorkspace
        taskDownstream := .deep
        changedInput := fun task =>
          .ok (if task.target = schemaTask.target then some (.file ⟨["schema.json"]⟩) else none) } }

/-- The first of two jobs runs the first target. The dependents of `setup` are run only if it is not
passed through before. And `client` is affected only if `schema` was checked before. -/
theorem order_of_targets_matters :
    OrderMatters lintEnv none { job := some 0, jobTotal := some 2 } lintTask.target
      formatTask.target { target := lintTask.target, id := some 1 } ∧
    OrderMatters serveEnv none { ci := true, ciCheck := true, dependents := .direct }
      setupTask.target serveTask.target { target := docsTask.target, id := some 1 } ∧
    OrderMatters clientEnv (some {})
      { skipAffected := true, includeRelations := true, dependents := .direct }
      formatTask.target lintTask.target { target := clientTask.target, id := some 1 } := by
  refine ⟨?_, ?_, ?_⟩
  · apply orderMatters_of_check <;> decide +kernel
  · apply orderMatters_of_check <;> decide +kernel
  · apply orderMatters_of_check <;> decide +kernel

def publishTask : Task :=
  { target := Target.new "app" "publish"
    deps := [{ target := serveTask.target }, { target := docsTask.target }] }

def publishWorkspace : WorkspaceGraph :=
  { projects := [{ id := "app" }]
    tasks := [setupTask, serveTask, docsTask, publishTask]
    taskDependents := fun target =>
      if target = setupTask.target then [serveTask.target, docsTask.target]
      else if target = serveTask.target ∨ target = docsTask.target then [publishTask.target]
      else [] }

/-- A file of `docs` has changed, which affects what depends on it as well. -/
def publishConfig : AffectedTrackerConfig :=
  { workspace := publishWorkspace
    ci := true
    taskDownstream := .deep
    changedInput := fun task =>
      .ok (if task.target = docsTask.target then some (.file ⟨["index.md"]⟩) else none) }

def publishEnv : BuilderEnv AffectedMarks :=
  { workspace := publishWorkspace, tracker := affectedTracker publishConfig }

def publishReqs : RunRequirements :=
  { ci := true, ciCheck := true, dependents := .deep, includeRelations := true }

/-- Whether `publish` has been linked to both of its dependencies, and `setup` not at all. -/
def publishLinked (b : ActionGraphBuilder AffectedMarks) : Prop :=
  (linkedTasks b b.requirements).map (fun pair => (pair.1.target, pair.2.target)) =
    [(publishTask.target, serveTask.target), (publishTask.target, docsTask.target)]

instance (b : ActionGraphBuilder AffectedMarks) : Decidable (publishLinked b) :=
  inferInstanceAs (Decidable (_ = _))

lemma publish_shouldRun {task : Task} (h : task ∈ [serveTask, docsTask, publishTask]) (ci : Bool) :
    task.shouldRun ci = true := by
  simp only [List.mem_cons, List.not_mem_nil] at h
  obtain rfl | rfl | rfl | ⟨⟨⟩⟩ := h <;> cases ci <;> rfl

lemma publish_dependents {target t : Target} {task : Task}
    (ht : t ∈ publishWorkspace.taskDependents target) (h : task ∈ resolved publishEnv t) :
    task ∈ [serveTask, docsTask, publishTask] := by
  have hts : t = serveTask.target ∨ t = docsTask.target ∨ t = publishTask.target := by
    unfold publishWorkspace at ht
    grind
  obtain rfl | rfl | rfl := hts
  · change task ∈ [serveTask] at h
    simp_all
  · change task ∈ [docsTask] at h
    simp_all
  · change task ∈ [publishTask] at h
    simp_all

/-- `setup` is passed through, and only ever as a dependency. -/
lemma publish_orderly (locators : List TargetLocator)
    (hrequested : ∀ task ∈ requestedTasks publishEnv locators, task ∈ [serveTask, docsTask]) :
    Orderly publishEnv publishConfig (some {}) publishReqs locators := by
  have hout (v : TaskVisit)
      (hp : Passes publishEnv
        (callPlan publishEnv publishConfig (some {}) publishReqs locators) v) :
      v.shouldRunDependents = false := by
    have hci : v.task ∉ [serveTask, docsTask, publishTask] := by
      intro h
      have hps := hp.passes
      rw [TaskVisit.isPassthrough, publish_shouldRun h] at hps
      simp at hps
    cases hp.reached with
    | request h => exact absurd (List.mem_append_left [publishTask] (hrequested _ h)) hci
    | dependency _ _ _ _ hc =>
      obtain ⟨config, -, depTask, -, rfl⟩ := mem_dependencyChildren hc
      simp [TaskVisit.shouldRunDependents]
    | dependent _ _ _ hc =>
      obtain ⟨t, ht, depTask, hd, rfl⟩ := mem_dependentChildren hc
      exact absurd (publish_dependents ht hd) hci
  exact ⟨.inl rfl, .inr (.inl rfl), fun v o hv ho _ => (hout v hv).trans (hout o ho).symm,
    fun h => by cases h⟩

/-- Only `docs` has changed, so `serve` is run as a dependency of `publish`, in both orders. -/
theorem serve_and_docs_perm :
    Orderly publishEnv publishConfig (some {}) publishReqs
      [.qualified serveTask.target, .qualified docsTask.target] ∧
    ∃ partition p' b b',
      (runTasks publishEnv 10 [.qualified serveTask.target, .qualified docsTask.target]
        publishReqs).run { affected := some {} } = .ok partition b ∧
      (runTasks publishEnv 10 [.qualified docsTask.target, .qualified serveTask.target]
        publishReqs).run { affected := some {} } = .ok p' b' ∧
      publishLinked b ∧ publishLinked b' ∧
      (∀ n, HasNode b n ↔ HasNode b' n) ∧ ∀ n m, HasRequirement b n m ↔ HasRequirement b' n m := by
  have ho := publish_orderly
    [.qualified serveTask.target, .qualified docsTask.target] (fun task h => h)
  obtain ⟨partition, b, hr, hl⟩ := exists_run_of_check (s := { affected := some {} })
    (p := fun _ b => decide (publishLinked b))
    (x := runTasks publishEnv 10 [.qualified serveTask.target, .qualified docsTask.target]
      publishReqs) (by decide +kernel)
  obtain ⟨p', b', hr', hl'⟩ := exists_run_of_check (s := { affected := some {} })
    (p := fun _ b => decide (publishLinked b))
    (x := runTasks publishEnv 10 [.qualified docsTask.target, .qualified serveTask.target]
      publishReqs) (by decide +kernel)
  exact ⟨ho, partition, p', b, b', hr, hr', of_decide_eq_true hl, of_decide_eq_true hl',
    run_tasks_perm rfl rfl ho (List.Perm.swap _ _ _) hr hr'⟩

theorem docs_builds_reached : ∃ partition b,
    (runTasks publishEnv 10 [.qualified docsTask.target] publishReqs).run
      { affected := some {} } = .ok partition b ∧ publishLinked b ∧
    (∀ n, HasNode b n ↔ ∃ v, Runs publishEnv (callPlan publishEnv publishConfig (some {})
      publishReqs [.qualified docsTask.target]) v ∧ n = v.node publishEnv.fxHash) ∧
    ∀ n m, HasRequirement b n m ↔ ∃ v, Runs publishEnv (callPlan publishEnv publishConfig
        (some {}) publishReqs [.qualified docsTask.target]) v ∧ v.shouldRunDependencies ∧
      n = v.node publishEnv.fxHash ∧ ∃ child ∈ dependencyChildren publishEnv v,
        child.isPassthrough = false ∧ m = child.node publishEnv.fxHash := by
  have ho := publish_orderly [.qualified docsTask.target]
    (fun task h => List.mem_cons_of_mem _ h)
  obtain ⟨partition, b, hr, hl⟩ := exists_run_of_check (s := { affected := some {} })
    (p := fun _ b => decide (publishLinked b))
    (x := runTasks publishEnv 10 [.qualified docsTask.target] publishReqs) (by decide +kernel)
  exact ⟨partition, b, hr, of_decide_eq_true hl, run_tasks_builds_reached rfl rfl ho hr⟩

end Moon.Proofs.Builder
