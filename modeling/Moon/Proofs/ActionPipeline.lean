import Moon.ActionPipeline
import Moon.Proofs.TaskRunner

/-!
# Tasks run after their dependencies

Target states are kept by target and the first one recorded wins, while a target may have
several nodes.
-/

namespace Moon.Proofs

open Moon.Lib List Option TaskRunner ActionPipeline

def DependenciesMet (task : Task) (context : ActionContext) (deps : List TaskDependencyConfig) :
    Prop :=
  ∀ dep ∈ deps, context.isDependencyIgnored task.target dep.target = true ∨
    ∃ state, context.targetStates.lookup dep.target = some state ∧ state.isComplete = true

variable {context : ActionContext} {t : Task}

lemma isDependenciesComplete_true {d : List TaskDependencyConfig}
    (h : isDependenciesComplete t context d = .ok true) : DependenciesMet t context d := by
  induction d with
  | nil =>
    intro dep hd
    cases hd
  | cons f d ih =>
    unfold isDependenciesComplete at h
    intro dep hd
    split_ifs at h with hi
    · rcases mem_cons.mp hd with rfl | hr
      · exact .inl hi
      · exact ih h dep hr
    · cases hs : context.targetStates.lookup f.target with
      | none =>
        rw [hs] at h
        cases h
      | some s =>
        rw [hs] at h
        dsimp only at h
        split_ifs at h with hc
        · rcases mem_cons.mp hd with rfl | hr
          · exact .inr ⟨s, hs, hc⟩
          · exact ih h dep hr
        · cases h

lemma dependenciesMet_internalRun (env : RunEnv) (context : ActionContext) (start : TaskRunner)
    (hst : start.executed = false) :
    Triple (fun r => r = start) (internalRun env context)
      (fun _ r => r.executed → DependenciesMet start.task context start.task.deps)
      (fun _ r => r.executed → DependenciesMet start.task context start.task.deps) := by
  have hi (r : TaskRunner) (h : r.executed = false) (hex : r.executed) :
      DependenciesMet start.task context start.task.deps := by
    rw [h] at hex
    cases hex
  unfold internalRun
  apply Triple.get_bind
  rintro r rfl
  apply Triple.lift_bind _ (fun _ s _ (hs : s = _) => hi s (hs ▸ hst))
  intro complete hc
  apply Triple.ite
  · intro _
    apply Triple.bind (M := fun _ s => s.executed = false)
    · apply Triple.modify_bind (M := fun s => s.executed = false)
      · rintro s rfl
        exact hst
      · exact Triple.modify (fun s hs => hs)
    · intro _
      exact Triple.pure (fun s hs => hi s hs)
  · intro ht
    have hm : DependenciesMet r.task context r.task.deps := by
      apply isDependenciesComplete_true
      rw [hc]
      cases complete
      · exact absurd rfl ht
      · rfl
    exact Triple.of_forall (fun _ _ _ => hm) (fun _ _ _ => hm)

variable {file : Option TaskRunCacheState} {env : RunEnv}

lemma run_executed (h : (run env t file context).runner.executed) :
    DependenciesMet t context t.deps := by
  have hs := dependenciesMet_internalRun env context (new env t file) rfl _ rfl
  unfold run at h
  cases hr : (internalRun env context).run (new env t file) with
  | ok | error =>
    rw [hr] at h hs
    apply hs
    cases hsv : env.saveState <;> rw [hsv] at h <;> exact h

/-- A state of a target was there at the start, was recorded by a node of the target, or was
set for a persistent node of the target. -/
def Provenance (graph : ActionGraph) (initial : ActionContext) (pipeline : ActionPipeline)
    (target : Target) (state : TargetState) : Prop :=
  initial.targetStates.lookup target = some state ∨
  (∃ index inner report, graph.nodes[index]? = some (.runTask inner) ∧ inner.target = target ∧
    index ∈ pipeline.recorded ∧ pipeline.reports.lookup index = some report ∧
    report.targetState = some state) ∨
  ∃ (index : Nat) (inner : RunTaskNode), graph.nodes[index]? = some (.runTask inner) ∧
    inner.target = target ∧ inner.persistent = true

/-- What is recorded stays so. -/
structure Grows (before after : ActionPipeline) : Prop where
  recorded : before.recorded ⊆ after.recorded
  reports : ∀ index ∈ before.recorded, after.reports.lookup index = before.reports.lookup index

variable {a : ActionPipeline} {s : TargetState} {target : Target}

lemma Provenance.mono {g : ActionGraph} {i : ActionContext} {b : ActionPipeline}
    (h : Provenance g i b target s) (hg : Grows b a) : Provenance g i a target s := by
  rcases h with h | ⟨index, inner, r, hn, ht, hm, hr, hs⟩ | h
  · exact .inl h
  · refine .inr (.inl ⟨index, inner, r, hn, ht, hg.recorded hm, ?_, hs⟩)
    rw [hg.reports index hm, hr]
  · exact .inr (.inr h)

def DependencyTraced (graph : ActionGraph) (initial : ActionContext) (pipeline : ActionPipeline)
    (task : Task) (dep : TaskDependencyConfig) : Prop :=
  initial.isDependencyIgnored task.target dep.target = true ∨
    ∃ state, Provenance graph initial pipeline dep.target state ∧ state.isComplete = true

lemma DependencyTraced.mono {g : ActionGraph} {i : ActionContext} {b : ActionPipeline}
    {dep : TaskDependencyConfig} (h : DependencyTraced g i b t dep) (hg : Grows b a) :
    DependencyTraced g i a t dep := by
  rcases h with hi | ⟨s, hp, hc⟩
  · exact .inl hi
  · exact .inr ⟨s, hp.mono hg, hc⟩

structure Traced (graph : ActionGraph) (tasks : Target → Option Task) (initial : ActionContext)
    (pipeline : ActionPipeline) : Prop where
  states : ∀ target state, pipeline.context.targetStates.lookup target = some state →
    Provenance graph initial pipeline target state
  ignored : pipeline.context.ignoredDependencies = initial.ignoredDependencies
  executed : ∀ index inner task report, graph.nodes[index]? = some (.runTask inner) →
    tasks inner.target = some task → pipeline.reports.lookup index = some report →
    report.runner.executed = true → ∀ dep ∈ task.deps,
      DependencyTraced graph initial pipeline task dep
  visited : pipeline.recorded ⊆ pipeline.visited
  started : pipeline.running ⊆ pipeline.visited
  deferred : ∀ index ∈ pipeline.persistentIndices, isPersistentNode graph index = true

lemma traced_initial (g : ActionGraph) (ts : Target → Option Task)
    (i : ActionContext) : Traced g ts i { context := i } where
  states target s h := .inl h
  ignored := rfl
  executed index inner t r _ _ h := by cases h
  visited := Finset.Subset.refl _
  started := Finset.Subset.refl _
  deferred index h := by cases h

lemma lookup_setTargetState {o : Target} {f : TargetState}
    (h : (context.setTargetState target s).targetStates.lookup o = some f) :
    context.targetStates.lookup o = some f ∨ (o = target ∧ f = s) := by
  change (context.targetStates.insertNew target s).lookup o = some f at h
  rw [Map.lookup_insertNew] at h
  split_ifs at h with hs
  · cases hl : context.targetStates.lookup target with
    | none =>
      rw [hl] at h
      exact .inr ⟨hs, (some.inj h).symm⟩
    | some old =>
      rw [hl] at h
      subst hs
      left
      rw [hl, ← some.inj h]
      rfl
  · exact .inl h

variable {g : ActionGraph} {ts : Target → Option Task} {i : ActionContext} {p : ActionPipeline}

variable {index : Nat}

lemma lookup_startJob {o : Nat} {r : TaskRunner.RunReport}
    (h : (p.startJob g ts index env file).reports.lookup o = some r) :
    p.reports.lookup o = some r ∨ (o = index ∧
        runTask ts env file p.context g.nodes[index]? = some r) := by
  unfold startJob at h
  cases hr : runTask ts env file p.context g.nodes[index]? with
  | none =>
    simp only [hr] at h
    exact .inl h
  | some f =>
    simp only [hr, Map.lookup_insert_eq] at h
    split_ifs at h with hs
    · cases h
      exact .inr ⟨hs, rfl⟩
    · exact .inl h

lemma traced_startJob (h : Traced g ts i p) (hid : index ∉ p.recorded) :
    Traced g ts i (p.startJob g ts index env file) := by
  have hg : Grows p (p.startJob g ts index env file) := by
    refine ⟨Finset.Subset.refl p.recorded, ?_⟩
    intro o hm
    have hne : o ≠ index := fun heq => hid (heq ▸ hm)
    unfold startJob
    cases runTask ts env file p.context g.nodes[index]? with
    | none => rfl
    | some r => exact Finmap.lookup_insert_of_ne _ hne
  refine ⟨fun target s hl => (h.states target s hl).mono hg, h.ignored, ?_,
    h.visited.trans (Finset.subset_insert _ _), Finset.insert_subset_insert _ h.started,
    h.deferred⟩
  intro o inner t r hn ht hrp hex dep hd
  rcases lookup_startJob hrp with ho | ⟨rfl, hr⟩
  · exact (h.executed o inner t r hn ht ho hex dep hd).mono hg
  · simp only [runTask, hn, ht, map_some] at hr
    cases hr
    rcases run_executed hex dep hd with hi | ⟨s, hs, hc⟩
    · left
      unfold ActionContext.isDependencyIgnored at hi ⊢
      rw [← h.ignored]
      exact hi
    · exact .inr ⟨s, (h.states _ _ hs).mono hg, hc⟩

lemma traced_of_grows (h : Traced g ts i p) (hg : Grows p a) (hrp : a.reports = p.reports)
    (hi : a.context.ignoredDependencies = p.context.ignoredDependencies)
    (hv : a.recorded ⊆ a.visited) (hs : a.running ⊆ a.visited)
    (hd : ∀ index ∈ a.persistentIndices, isPersistentNode g index = true)
    (hst : ∀ target s, a.context.targetStates.lookup target = some s →
      p.context.targetStates.lookup target = some s ∨
        Provenance g i a target s) : Traced g ts i a := by
  refine ⟨?_, hi.trans h.ignored, ?_, hv, hs, hd⟩
  · intro target s hl
    rcases hst target s hl with ho | hn
    · exact (h.states target s ho).mono hg
    · exact hn
  · intro index inner t r hnd ht hr hex dep hd
    rw [hrp] at hr
    exact (h.executed index inner t r hnd ht hr hex dep hd).mono hg

lemma traced_record (h : Traced g ts i p) (hi : index ∈ p.running) :
    Traced g ts i { p with
      context := p.recordState g index
      running := p.running.erase index
      recorded := insert index p.recorded } := by
  refine traced_of_grows h ?_ rfl ?_ ?_ ?_ h.deferred ?_
  · exact ⟨Finset.subset_insert index p.recorded, fun _ _ => rfl⟩
  · change (p.recordState g index).ignoredDependencies = _
    unfold recordState
    split <;> rfl
  · exact Finset.insert_subset (h.started hi) h.visited
  · exact (Finset.erase_subset _ _).trans h.started
  · intro target s hl
    change (p.recordState g index).targetStates.lookup target = some s at hl
    unfold recordState at hl
    split at hl
    · rename_i inner set hn hs
      obtain ⟨r, hr, hst⟩ := bind_eq_some_iff.mp hs
      rcases lookup_setTargetState hl with ho | ⟨rfl, rfl⟩
      · exact .inl ho
      · exact .inr (.inr (.inl ⟨index, inner, r, hn, rfl, Finset.mem_insert_self _ _, hr, hst⟩))
    · exact .inl hl

lemma lookup_foldl_setPersistentState {is : List Nat}
    (h : (is.foldl (setPersistentState g) context).targetStates.lookup target = some s) :
    context.targetStates.lookup target = some s ∨
      ∃ index inner, g.nodes[index]? = some (.runTask inner) ∧ inner.target = target ∧
        index ∈ is := by
  induction is generalizing context with
  | nil => exact .inl h
  | cons f is ih =>
    rcases ih h with hf | ⟨index, inner, hn, ht, hm⟩
    · unfold setPersistentState at hf
      split at hf
      · rename_i inner hn
        rcases lookup_setTargetState hf with ho | ⟨rfl, -⟩
        · exact .inl ho
        · exact .inr ⟨f, inner, hn, rfl, mem_cons_self⟩
      · exact .inl hf
    · exact .inr ⟨index, inner, hn, ht, mem_cons_of_mem _ hm⟩

lemma traced_step (h : Traced g ts i p) {e : PipelineEvent}
    (hs : p.step g ts e = some a) : Traced g ts i a := by
  cases e with
  | start index env file =>
    simp only [ActionPipeline.step] at hs
    split_ifs at hs with hg
    cases hs
    have hn : index ∉ p.visited := by
      simp only [dispatchable, Bool.and_eq_true, decide_eq_true_eq] at hg
      exact hg.1.1.2
    exact traced_startJob h (fun hm => hn (h.visited hm))
  | record index =>
    simp only [ActionPipeline.step] at hs
    split_ifs at hs with hg
    cases hs
    exact traced_record h hg
  | complete index =>
    simp only [ActionPipeline.step] at hs
    split_ifs at hs
    cases hs
    exact traced_of_grows h ⟨Finset.Subset.refl p.recorded, fun _ _ => rfl⟩ rfl rfl h.visited
      h.started h.deferred (fun _ _ hl => .inl hl)
  | defer index =>
    simp only [ActionPipeline.step] at hs
    split_ifs at hs with hg
    cases hs
    refine traced_of_grows h ⟨Finset.Subset.refl p.recorded, fun _ _ => rfl⟩ rfl rfl
      (h.visited.trans (Finset.subset_insert _ _)) (h.started.trans (Finset.subset_insert _ _)) ?_
      (fun _ _ hl => .inl hl)
    exact forall_mem_append.mpr
      ⟨h.deferred, forall_mem_singleton.mpr (Bool.and_eq_true_iff.mp hg).2⟩
  | runPersistent =>
    simp only [ActionPipeline.step] at hs
    split_ifs at hs
    cases hs
    refine traced_of_grows h ⟨Finset.Subset.refl p.recorded, fun _ _ => rfl⟩ rfl ?_ h.visited
      h.started h.deferred ?_
    · refine foldlRecOn (motive := fun context : ActionContext => context.ignoredDependencies =
        p.context.ignoredDependencies) _ _ rfl (fun context hc index _ => ?_)
      unfold setPersistentState
      split <;> exact hc
    · intro target s hl
      rcases lookup_foldl_setPersistentState hl with ho | ⟨index, inner, hnd, ht, hm⟩
      · exact .inl ho
      · have hp := h.deferred index hm
        rw [isPersistentNode, hnd] at hp
        exact .inr (.inr (.inr ⟨index, inner, hnd, ht, hp⟩))
  | startPersistent index env file =>
    simp only [ActionPipeline.step] at hs
    split_ifs at hs with hg
    cases hs
    have hn : index ∉ p.recorded := by
      simp only [Bool.and_eq_true, decide_eq_true_eq] at hg
      exact hg.2.2
    exact traced_startJob h hn
  | abort =>
    cases hs
    exact traced_of_grows h ⟨Finset.Subset.refl p.recorded, fun _ _ => rfl⟩ rfl rfl h.visited
      h.started h.deferred (fun _ _ hl => .inl hl)

/-- An edge between two `RunTask` nodes that comes from a declared dependency, and not from
the order of a serial list. -/
structure DependencyEdge (graph : ActionGraph) (tasks : Target → Option Task)
    (index depIndex : Nat) where
  edge : (index, depIndex) ∈ graph.edges
  inner : RunTaskNode
  node : graph.nodes[index]? = some (.runTask inner)
  depInner : RunTaskNode
  depNode : graph.nodes[depIndex]? = some (.runTask depInner)
  task : Task
  known : tasks inner.target = some task
  dep : TaskDependencyConfig
  declared : dep ∈ task.deps
  dep_target : dep.target = depInner.target

/-- The node has ended in a complete state. -/
def NodeComplete (pipeline : ActionPipeline) (index : Nat) : Prop :=
  index ∈ pipeline.recorded ∧ ∃ report state, pipeline.reports.lookup index = some report ∧
    report.targetState = some state ∧ state.isComplete = true

/-- The state of a dependency's target can only be that of the dependency's node. A persistent node
is given a state before it runs. -/
structure SoleState (graph : ActionGraph) (tasks : Target → Option Task)
    (initial : ActionContext) {index depIndex : Nat}
    (edge : DependencyEdge graph tasks index depIndex) : Prop where
  sole : ∀ (other : Nat) (inner : RunTaskNode), graph.nodes[other]? = some (.runTask inner) →
    inner.target = edge.depInner.target → other = depIndex
  unset : initial.targetStates.lookup edge.depInner.target = none
  observed : initial.isDependencyIgnored edge.task.target edge.depInner.target = false
  finishes : edge.depInner.persistent = false

/-- In every order of the jobs: a node whose command was run has found each of its sole
dependency nodes complete. -/
theorem executed_only_after_complete (graph : ActionGraph) (tasks : Target → Option Task)
    (initial : ActionContext) (events : List PipelineEvent) (pipeline : ActionPipeline)
    (hrun : exec (ActionPipeline.step graph tasks) { context := initial } events = some pipeline)
    (index j : Nat) (e : DependencyEdge graph tasks index j)
    (hsole : SoleState graph tasks initial e) (r : TaskRunner.RunReport)
    (hreport : pipeline.reports.lookup index = some r)
    (he : r.runner.executed = true) : NodeComplete pipeline j := by
  have htr : Traced graph tasks initial pipeline :=
    exec_invariant (fun _ _ _ h hs => traced_step h hs) (traced_initial graph tasks initial) hrun
  rcases htr.executed index e.inner e.task r e.node e.known hreport
    he e.dep e.declared with hi | ⟨s, hp, hc⟩
  · rw [e.dep_target, hsole.observed] at hi
    cases hi
  · rw [e.dep_target] at hp
    rcases hp with h | ⟨o, inner, r, hn, ht, hm, hreport, hst⟩ | ⟨o, inner, hn, ht, hps⟩
    · rw [hsole.unset] at h
      cases h
    · obtain rfl := hsole.sole o inner hn ht
      exact ⟨hm, r, s, hreport, hst, hc⟩
    · obtain rfl := hsole.sole o inner hn ht
      cases e.depNode.symm.trans hn
      rw [hsole.finishes] at hps
      cases hps

def libBuild : Task := { target := Target.new "lib" "build", command := ⟨none, "cargo"⟩ }

def appBuild (deps : List TaskDependencyConfig) : Task :=
  { target := Target.new "app" "build", command := ⟨none, "cargo"⟩, deps := deps }

def libAndApp (deps : List TaskDependencyConfig) (target : Target) : Option Task :=
  [libBuild, appBuild deps].find? (fun task => task.target = target)

def libThenApp : ActionGraph where
  nodes := [.runTask { target := libBuild.target }, .runTask { target := (appBuild []).target }]
  edges := [(1, 0)]
  edges_lt := by decide
  acyclic := acyclic_pair

def libThenAppEdge : DependencyEdge libThenApp (libAndApp [{ target := libBuild.target }]) 1 0 where
  edge := by decide
  inner := { target := (appBuild []).target }
  node := rfl
  depInner := { target := libBuild.target }
  depNode := rfl
  task := appBuild [{ target := libBuild.target }]
  known := by decide
  dep := { target := libBuild.target }
  declared := by decide
  dep_target := rfl

theorem libThenApp_executed_after_complete : ∃ pipeline report, exec (ActionPipeline.step libThenApp
        (libAndApp [{ target := libBuild.target }])) { context := {} }
          [.start 0 (plainRun "aaa" (by decide)) none, .record 0, .complete 0,
            .start 1 (plainRun "bbb" (by decide)) none] = some pipeline ∧
      pipeline.reports.lookup 1 = some report ∧ report.runner.executed = true ∧
      NodeComplete pipeline 0 := by
  have hex : (exec (ActionPipeline.step libThenApp
      (libAndApp [{ target := libBuild.target }])) { context := {} }
        [.start 0 (plainRun "aaa" (by decide)) none, .record 0, .complete 0,
          .start 1 (plainRun "bbb" (by decide)) none]).map (fun pipeline =>
      (pipeline.reports.lookup 1).map (fun report => report.runner.executed)) =
        some (some true) := by
    decide +kernel
  obtain ⟨pipeline, hrn, hl⟩ := map_eq_some_iff.mp hex
  obtain ⟨report, hr, hc⟩ := map_eq_some_iff.mp hl
  have hs : SoleState libThenApp (libAndApp [{ target := libBuild.target }]) {}
      libThenAppEdge := by
    refine ⟨?_, rfl, rfl, rfl⟩
    intro o inner hn ht
    match o with
    | 0 => rfl
    | 1 =>
      cases hn
      exact absurd ht (by decide)
    | _ + 2 => cases hn
  exact ⟨pipeline, report, hrn, hr, hc,
    executed_only_after_complete _ _ _ _ pipeline hrn 1 0 libThenAppEdge hs report hr hc⟩

def libVariants : List TaskDependencyConfig :=
  [{ target := libBuild.target }, { target := libBuild.target, args := ["--docs"] }]

def libVariantsThenApp : ActionGraph where
  nodes := [.runTask { target := libBuild.target },
    .runTask { target := libBuild.target, args := ["--docs"] },
    .runTask { target := (appBuild []).target }]
  edges := [(2, 0), (2, 1)]
  edges_lt := by decide
  acyclic := by
    apply acyclic_of_rank id
    intro source target h
    simp only [mem_cons, Prod.mk.injEq, not_mem_nil, or_false] at h
    dsimp only [id]
    omega

def libVariantEdge : DependencyEdge libVariantsThenApp (libAndApp libVariants) 2 1 where
  edge := by decide
  inner := { target := (appBuild []).target }
  node := rfl
  depInner := { target := libBuild.target, args := ["--docs"] }
  depNode := rfl
  task := appBuild libVariants
  known := by decide
  dep := { target := libBuild.target, args := ["--docs"] }
  declared := by decide
  dep_target := rfl

/-- `lib:build --docs` fails after `lib:build` has passed, and `app:build` runs all the same. -/
theorem libVariant_failed_and_app_executed :
    ∃ (events : List PipelineEvent) (pipeline : ActionPipeline) (report : TaskRunner.RunReport)
      (_ : DependencyEdge libVariantsThenApp (libAndApp libVariants) 2 1),
      exec (ActionPipeline.step libVariantsThenApp (libAndApp libVariants)) { context := {} }
        events = some pipeline ∧ pipeline.aborted = false ∧
      pipeline.reports.lookup 2 = some report ∧ report.runner.executed = true ∧
      ¬ NodeComplete pipeline 1 := by
  let f : RunEnv := { plainRun "ccc" (by decide) with
    attempts := fun _ => { outcome := .output (some (some 1)) } }
  let events : List PipelineEvent := [.start 0 (plainRun "aaa" (by decide)) none, .record 0,
    .complete 0, .start 1 f none, .record 1, .complete 1,
    .start 2 (plainRun "bbb" (by decide)) none]
  have hen : (exec (ActionPipeline.step libVariantsThenApp (libAndApp libVariants))
      { context := {} } events).map (fun pipeline =>
        ((pipeline.reports.lookup 2).map (fun report => report.runner.executed),
          (pipeline.reports.lookup 1).bind TaskRunner.RunReport.targetState, pipeline.aborted)) =
      some (some true, some .failed, false) := by
    decide +kernel
  obtain ⟨pipeline, hrn, h⟩ := map_eq_some_iff.mp hen
  simp only [Prod.mk.injEq] at h
  obtain ⟨hl, hf, ha⟩ := h
  obtain ⟨report, hr, hex⟩ := map_eq_some_iff.mp hl
  refine ⟨events, pipeline, report, libVariantEdge, hrn, ha, hr, hex, ?_⟩
  rintro ⟨-, depReport, s, hd, hs, hc⟩
  rw [hd, bind_some, hs] at hf
  cases hf
  cases hc

end Moon.Proofs
