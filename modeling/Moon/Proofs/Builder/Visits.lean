import Moon.Proofs.Builder.Setup
import Moon.Proofs.WorkspaceGraph

/-!
# Visits of tasks

The visits that a call may lead to, as a closure over the workspace that does not depend on
the state of the builder, and rules for the loops over dependencies and dependents.
-/

namespace Moon.Proofs.Builder

open Moon.Lib ActionGraphBuilder List

variable {task : Task} {e : RunTaskNode} {es : List Nat}

variable {A : Type} {env : BuilderEnv A} {v : TaskVisit}

section

variable (env : BuilderEnv A)

def resolved (target : Target) : List Task :=
  match env.workspace.resolveTasksFromTarget env.allQuery target true with
  | .ok tasks => tasks
  | .error _ => []

/-- The target names tasks of the workspace. -/
def Resolves (target : Target) : Prop :=
  ∃ tasks, env.workspace.resolveTasksFromTarget env.allQuery target true = .ok tasks

/-- What a visit calls for its dependencies. -/
def dependencyVisits (visit : TaskVisit) : List TaskVisit :=
  visit.task.deps.flatMap (fun dep => (resolved env dep.target).map (visit.dependency dep))

def dependentVisits (visit : TaskVisit) : List TaskVisit :=
  (env.workspace.taskDependents visit.task.target).flatMap (fun target =>
    (resolved env target).map visit.dependent)

/-- The workspace has the task under its target. -/
def Known (task : Task) : Prop := env.workspace.getTask task.target = .ok task

end

lemma task_eq_of_target {o : Task} (h : Known env task)
    (ho : Known env o) (ht : task.target = o.target) : task = o := by
  unfold Known at h ho
  rw [ht, ho] at h
  exact (Except.ok.inj h).symm

lemma mem_resolved_known {t : Target} (h : task ∈ resolved env t) : Known env task := by
  unfold resolved at h
  cases hr : env.workspace.resolveTasksFromTarget env.allQuery t true with
  | error error => simp [hr] at h
  | ok tasks =>
    rw [hr] at h
    exact resolveTasksFromTarget_known hr h

variable {dep : TaskVisit}

lemma mem_dependencyVisits (h : dep ∈ dependencyVisits env v) :
    ∃ c ∈ v.task.deps, ∃ d ∈ resolved env c.target, dep = v.dependency c d := by
  obtain ⟨c, hc, hd⟩ := mem_flatMap.mp h
  obtain ⟨d, hdt, rfl⟩ := mem_map.mp hd
  exact ⟨c, hc, d, hdt, rfl⟩

lemma mem_dependentVisits (h : dep ∈ dependentVisits env v) :
    ∃ t ∈ env.workspace.taskDependents v.task.target,
      ∃ d ∈ resolved env t, dep = v.dependent d := by
  obtain ⟨t, ht, hd⟩ := mem_flatMap.mp h
  obtain ⟨d, hdt, rfl⟩ := mem_map.mp hd
  exact ⟨t, ht, d, hdt, rfl⟩

/-- All visits that a call can come to, were none of them cut short. -/
inductive Visited (env : BuilderEnv A) (call : TaskVisit) : TaskVisit → Prop
  | call : Visited env call call
  | dependency {visit dep : TaskVisit} (h : Visited env call visit)
      (hruns : visit.isPassthrough = false) (hscope : visit.shouldRunDependencies = true)
      (hdep : dep ∈ dependencyVisits env visit) : Visited env call dep
  | dependent {visit dep : TaskVisit} (h : Visited env call visit)
      (hscope : visit.shouldRunDependents = true)
      (hdep : dep ∈ dependentVisits env visit) : Visited env call dep

lemma known_of_dependency (h : dep ∈ dependencyVisits env v) : Known env dep.task := by
  obtain ⟨c, -, d, hd, rfl⟩ := mem_dependencyVisits h
  exact mem_resolved_known hd

lemma known_of_dependent (h : dep ∈ dependentVisits env v) : Known env dep.task := by
  obtain ⟨t, -, d, hd, rfl⟩ := mem_dependentVisits h
  exact mem_resolved_known hd

lemma Visited.dependencies_eq {call : TaskVisit}
    (h : Visited env call v) : v.reqs.dependencies = call.reqs.dependencies := by
  induction h with
  | call => rfl
  | dependency _ _ _ hd ih =>
    obtain ⟨c, -, d, -, rfl⟩ := mem_dependencyVisits hd
    exact ih
  | dependent _ _ hd ih =>
    obtain ⟨t, -, d, -, rfl⟩ := mem_dependentVisits hd
    exact ih

section

variable {b b' : ActionGraphBuilder A}

structure Links (b : ActionGraphBuilder A) (n : RunTaskNode) (targets : RunTaskNode → Prop)
    (b' : ActionGraphBuilder A) : Prop where
  nodes : b'.graph.nodes = b.graph.nodes
  hasEdge : ∀ a m, HasEdge b' a m ↔ HasEdge b a m ∨ (a = n ∧ targets m)
  hasRequirement : ∀ a m, HasRequirement b' a m ↔ HasRequirement b a m ∨ (a = n ∧ targets m)
  rest : b' = { b with graph := b'.graph, requirements := b'.requirements }

structure Ordered (b : ActionGraphBuilder A) (n earlier : RunTaskNode)
    (b' : ActionGraphBuilder A) : Prop where
  nodes : b'.graph.nodes = b.graph.nodes
  hasEdge : ∀ a m, HasEdge b' a m → HasEdge b a m ∨
    (m = earlier ∧ Relation.ReflTransGen (HasRequirement b) n a)
  rest : b' = { b with graph := b'.graph, serialEdges := b'.serialEdges }

lemma taskAt_congr (h : b'.graph.nodes = b.graph.nodes) (index : Nat) (n : RunTaskNode) :
    TaskAt b' index n ↔ TaskAt b index n := by
  unfold TaskAt
  rw [h]

variable {n : RunTaskNode}

lemma Ordered.hasRequirement {ea : RunTaskNode} (h : Ordered b n ea b')
    (a m : RunTaskNode) : HasRequirement b' a m ↔ HasRequirement b a m := by
  have hr : b'.requirements = b.requirements := by rw [h.rest]
  unfold HasRequirement Linked
  simp only [taskAt_congr h.nodes, hr]

variable {ts : List Nat} {index : Nat}

lemma LinkStep.linked_iff {p ps' : List (Nat × Nat)} (hnd : b'.graph.nodes = b.graph.nodes)
    (hp : ∀ ed, ed ∈ ps' ↔ ed ∈ p ∨ ∃ j ∈ ts, ed = (index, j))
    (hn : TaskAt b index n) (a m : RunTaskNode) :
    Linked b' ps' a m ↔ Linked b p a m ∨ (a = n ∧ ∃ j ∈ ts, TaskAt b j m) := by
  constructor
  · rintro ⟨i, j, hi, hj, hme⟩
    rw [taskAt_congr hnd] at hi hj
    rcases (hp _).mp hme with ho | ⟨k, hk, heq⟩
    · exact .inl ⟨i, j, hi, hj, ho⟩
    · cases heq
      exact .inr ⟨hi.unique hn, j, hk, hj⟩
  · rintro (⟨i, j, hi, hj, hme⟩ | ⟨rfl, j, hj, hm⟩)
    · exact ⟨i, j, (taskAt_congr hnd i a).mpr hi, (taskAt_congr hnd j m).mpr hj,
        (hp _).mpr (.inl hme)⟩
    · exact ⟨index, j, (taskAt_congr hnd index a).mpr hn, (taskAt_congr hnd j m).mpr hm,
        (hp _).mpr (.inr ⟨j, hj, rfl⟩)⟩

lemma LinkStep.links (h : LinkStep b index ts b') (hn : TaskAt b index n) :
    Links b n (fun m => ∃ j ∈ ts, TaskAt b j m) b' :=
  ⟨h.nodes, linked_iff h.nodes h.edges hn, linked_iff h.nodes h.requirements hn, h.rest⟩

lemma LinkStep.grows (h : LinkStep b index ts b') : Grows b b' := by
  refine ⟨by rw [h.nodes], fun ed hed => (h.edges ed).mpr (.inl hed),
    fun ed hed => (h.requirements ed).mpr (.inl hed), ?_⟩
  rw [h.rest]
  exact List.Subset.refl _

lemma WellFormed.linkTask (hw : WellFormed env b) (hst : LinkStep b index ts b')
    (hn : TaskAt b index n) : WellFormed env b' := by
  apply hw.linkStep hst
  intro j _ s t hs _
  rw [show b.graph.nodes[index]? = some (.runTask n) from hn] at hs
  cases hs
  cases t <;> simp [Allowed, layer]

lemma WellFormed.reach_required (hw : WellFormed env b) {s : Nat} (hn : TaskAt b index n)
    (hr : Relation.ReflTransGen (fun i j => j ∈ b.requiredTasks i) index s) :
    ∃ a, TaskAt b s a ∧ Relation.ReflTransGen (HasRequirement b) n a := by
  induction hr with
  | refl => exact ⟨n, hn, .refl⟩
  | @tail i j _ hst ih =>
    obtain ⟨a, ha, hp⟩ := ih
    obtain ⟨⟨i', j'⟩, hed, rfl⟩ := mem_map.mp hst
    obtain ⟨hm, hg⟩ := mem_filter.mp hed
    simp only [Bool.and_eq_true, beq_iff_eq, Bool.not_eq_true', contains_eq_mem,
      decide_eq_false_iff_not] at hg
    obtain ⟨⟨rfl, hs⟩, hk⟩ := hg
    obtain ⟨node, hnd⟩ := exists_target_node hm
    rw [hnd] at hk
    cases node with
    | runTask m =>
      have hrq := (hw.edges _ hm).resolve_right hs
      exact ⟨m, hnd, hp.tail ⟨i', j', ha, hnd, hrq⟩⟩
    | _ => cases hk

lemma linkSerialRequirements_grows (b : ActionGraphBuilder A) (index ps : Nat) :
    Grows b (b.linkSerialRequirements index ps) := by
  obtain ⟨sources, hs, -⟩ := linkSerialRequirements_spec b index ps
  have hr := hs.rest
  refine ⟨by rw [hs.nodes], hs.edges_mono, ?_, ?_⟩
  · rw [hr]
    exact List.Subset.refl _
  · rw [hr]
    exact List.Subset.refl _

lemma WellFormed.linkSerial (hw : WellFormed env b) {ps : Nat}
    (hn : TaskAt b index n) (he : TaskAt b ps e) :
    WellFormed env (b.linkSerialRequirements index ps) := by
  obtain ⟨ss, hst, hsr⟩ := linkSerialRequirements_spec b index ps
  have hr : (b.linkSerialRequirements index ps).requirements = b.requirements := by
    rw [hst.rest]
  have hs (i : Nat) (hi : i ∈ ss) : ∃ a, TaskAt b i a := by
    obtain ⟨a, ha, -⟩ := hw.reach_required hn (hsr i hi)
    exact ⟨a, ha⟩
  refine ⟨hst.nodes ▸ hw.nodup, ?_, ?_, ?_, ?_⟩
  · intro i j s t hed hi hj
    rw [hst.nodes] at hi hj
    rcases hst.edges _ hed with ho | ⟨-, k, hk, heq⟩
    · exact hw.allowed i j s t ho hi hj
    · cases heq
      obtain ⟨a, ha⟩ := hs i hk
      rw [show b.graph.nodes[i]? = some (.runTask a) from ha] at hi
      rw [show b.graph.nodes[ps]? = some (.runTask e) from he] at hj
      cases hi
      cases hj
      trivial
  · intro ed hed
    rcases hst.edges _ hed with ho | ⟨hse, -⟩
    · rw [hr]
      exact (hw.edges ed ho).imp id (fun h => hst.serial_mono h)
    · exact .inr hse
  · intro ed hed
    rw [hr] at hed
    exact hst.edges_mono (hw.requirements ed hed)
  · intro ed hed
    simp only [taskAt_congr hst.nodes]
    rcases hst.serial ed hed with ho | ⟨hm, i, hi, rfl⟩
    · obtain ⟨hm, ht⟩ := hw.serialEdges ed ho
      exact ⟨hst.edges_mono hm, ht⟩
    · obtain ⟨a, ha⟩ := hs i hi
      exact ⟨hm, a, e, ha, he⟩

lemma WellFormed.ordered (hw : WellFormed env b) {ps : Nat}
    (hn : TaskAt b index n) (he : TaskAt b ps e) :
    Ordered b n e (b.linkSerialRequirements index ps) := by
  obtain ⟨sources, hs, hsr⟩ := linkSerialRequirements_spec b index ps
  refine ⟨hs.nodes, ?_, hs.rest⟩
  rintro a m ⟨i, j, hi, hj, hm⟩
  rw [taskAt_congr hs.nodes] at hi hj
  rcases hs.edges _ hm with ho | ⟨-, k, hk, heq⟩
  · exact .inl ⟨i, j, hi, hj, ho⟩
  · cases heq
    obtain ⟨a', ha', hp⟩ := hw.reach_required hn (hsr i hk)
    rw [hi.unique ha']
    exact .inr ⟨hj.unique he, hp⟩

end

section

variable {run : TaskVisit → BuildM A (Option Nat)}
  {I : List TaskVisit → ActionGraphBuilder A → Prop} {J : ActionGraphBuilder A → Prop}
  {E : ActionGraphError → ActionGraphBuilder A → Prop}

/-- What the loop over the dependencies knows after some of them: each has a result, and the
indices are those results. -/
structure Collected (Fact : TaskVisit → Option Nat → ActionGraphBuilder A → Prop)
    (done : List TaskVisit) (indexes : List Nat) (b : ActionGraphBuilder A) : Prop where
  results : ∀ dep ∈ done, ∃ r, Fact dep r b ∧ ∀ index, r = some index → index ∈ indexes
  edges : ∀ index ∈ indexes, ∃ dep ∈ done, Fact dep (some index) b

variable {Fact : TaskVisit → Option Nat → ActionGraphBuilder A → Prop}

variable {done : List TaskVisit} {b : ActionGraphBuilder A}

lemma Collected.snoc (h : Collected Fact done es b) {r : Option Nat} (hr : Fact dep r b) :
    Collected Fact (done ++ [dep]) (es ++ r.toList) b := by
  constructor
  · intro o ho
    rcases mem_append.mp ho with hol | hn
    · obtain ⟨r', hr', hi⟩ := h.results o hol
      exact ⟨r', hr', fun index heq => mem_append_left _ (hi index heq)⟩
    · rw [mem_singleton.mp hn]
      exact ⟨r, hr, fun index heq => mem_append_right _ (Option.mem_toList.mpr heq)⟩
  · intro index hi
    rcases mem_append.mp hi with hol | hn
    · obtain ⟨o, ho, hr'⟩ := h.edges index hol
      exact ⟨o, mem_append_left _ ho, hr'⟩
    · rw [Option.mem_toList.mp hn] at hr
      exact ⟨dep, mem_append_right _ (mem_singleton_self dep), hr⟩

/-- The invariant depends on the dependencies that are done, and facts about their results survive
as the graph grows. -/
structure DependencyLoop (env : BuilderEnv A) (run : TaskVisit → BuildM A (Option Nat))
    (visit : TaskVisit) (I : List TaskVisit → ActionGraphBuilder A → Prop)
    (Fact : TaskVisit → Option Nat → ActionGraphBuilder A → Prop)
    (E : ActionGraphError → ActionGraphBuilder A → Prop) : Prop where
  visits : ∀ done dep rest, dependencyVisits env visit = done ++ dep :: rest →
    ∀ b, I done b → Triple (fun s => s = b) (run dep)
      (fun r b' => Grows b b' ∧ I (done ++ [dep]) b' ∧ Fact dep r b') E
  serial : visit.task.options.runDepsInParallel = false → ∀ done dep rest,
    dependencyVisits env visit = done ++ dep :: rest → ∀ earlier ∈ done,
    ∀ index previous b, I (done ++ [dep]) b → Fact dep (some index) b →
      Fact earlier (some previous) b →
      I (done ++ [dep]) (b.linkSerialRequirements index previous)
  mono : ∀ dep r b b', Grows b b' → Fact dep r b → Fact dep r b'
  error : ∀ done e b, I done b → E (.workspace e) b

/-- Where a loop over visits stands, after those that are `done`. -/
def Progress (J : ActionGraphBuilder A → Prop)
    (Fact : TaskVisit → Option Nat → ActionGraphBuilder A → Prop) (done : List TaskVisit)
    (indexes : List Nat) (previous : Option Nat) (b : ActionGraphBuilder A) : Prop :=
  J b ∧ Collected Fact done indexes b ∧
    ∀ index, previous = some index → ∃ earlier ∈ done, Fact earlier (some index) b

lemma Progress.grows {J' : ActionGraphBuilder A → Prop} {is : List Nat} {ps : Option Nat}
    {b' : ActionGraphBuilder A} (h : Progress J Fact done is ps b)
    (hm : ∀ dep r b b', Grows b b' → Fact dep r b → Fact dep r b') (hg : Grows b b')
    (hJ : J' b') : Progress J' Fact done is ps b' := by
  obtain ⟨-, hc, hp⟩ := h
  refine ⟨hJ, ⟨fun dep hd => ?_, fun index hi => ?_⟩, fun index hi => ?_⟩
  · obtain ⟨r, hr, hi⟩ := hc.results dep hd
    exact ⟨r, hm dep r b b' hg hr, hi⟩
  · obtain ⟨dep, hd, hr⟩ := hc.edges index hi
    exact ⟨dep, hd, hm dep _ b b' hg hr⟩
  · obtain ⟨ea, her, hpr⟩ := hp index hi
    exact ⟨ea, her, hm _ _ b b' hg hpr⟩

section

variable (h : DependencyLoop env run v I Fact E) {rest : List TaskVisit}
  (hsplit : dependencyVisits env v = done ++ dep :: rest) (is : List Nat)
  (ps : Option Nat)
include h hsplit

lemma DependencyLoop.runVisit : Triple (Progress (I done) Fact done is ps) (run dep)
      (fun r b => Progress (I (done ++ [dep])) Fact done is ps b ∧ Fact dep r b)
      E := by
  intro b hb
  apply (h.visits done dep rest hsplit b hb.1).post _ b rfl
  rintro r b' ⟨hg, hI, hf⟩
  exact ⟨hb.grows h.mono hg hI, hf⟩

lemma DependencyLoop.linkSerial (index : Nat) :
    Triple (fun b => Progress (I (done ++ [dep])) Fact done is ps b ∧ Fact dep (some index) b)
      (ActionGraphBuilder.linkSerial v.task.options.runDepsInParallel index ps)
      (fun _ b => Progress (I (done ++ [dep])) Fact done is ps b ∧ Fact dep (some index) b) E := by
  unfold ActionGraphBuilder.linkSerial
  cases ps with
  | none => exact Triple.pure (fun _ hb => hb)
  | some p =>
    apply Triple.ite
    · intro _
      exact Triple.pure (fun _ hb => hb)
    · intro hprl
      apply Triple.modify
      rintro b ⟨hp, hd⟩
      obtain ⟨ea, her, hpr⟩ := hp.2.2 p rfl
      have hg := linkSerialRequirements_grows b index p
      have hI := h.serial (by simpa using hprl) done dep rest hsplit ea her index p b hp.1 hd hpr
      exact ⟨hp.grows h.mono hg hI, h.mono _ _ b _ hg hd⟩

end

lemma DependencyLoop.tasks (h : DependencyLoop env run v I Fact E)
    (dep : TaskDependencyConfig) (ds : List Task) (done rest : List TaskVisit)
    (hsplit : dependencyVisits env v = done ++ (ds.map (v.dependency dep) ++ rest))
    (is : List Nat) (ps : Option Nat) :
    Triple (Progress (I done) Fact done is ps) (runDependencyTasks run v dep ds ps)
      (fun r => Progress (I (done ++ ds.map (v.dependency dep))) Fact
        (done ++ ds.map (v.dependency dep)) (is ++ r.1) r.2) E := by
  induction ds generalizing done is ps with
  | nil =>
    apply Triple.pure
    intro b hb
    simpa using hb
  | cons d ds ih =>
    have hn : dependencyVisits env v =
        (done ++ [v.dependency dep d]) ++ (ds.map (v.dependency dep) ++ rest) := by
      rw [hsplit]
      simp
    have hdn : done ++ (d :: ds).map (v.dependency dep) =
        (done ++ [v.dependency dep d]) ++ ds.map (v.dependency dep) := by
      simp
    unfold runDependencyTasks
    rw [hdn]
    apply Triple.bind (h.runVisit hsplit is ps)
    intro r
    cases r with
    | none =>
      apply (ih _ hn is ps).pre _
      rintro b ⟨⟨hI, hc, hp⟩, hd⟩
      refine ⟨hI, by simpa using hc.snoc hd, fun index hi => ?_⟩
      obtain ⟨ea, her, hpr⟩ := hp index hi
      exact ⟨ea, mem_append_left _ her, hpr⟩
    | some index =>
      apply Triple.bind (h.linkSerial hsplit is ps index)
      intro _
      apply Triple.bind
      · apply (ih _ hn (is ++ [index]) (some index)).pre _
        rintro b ⟨⟨hI, hc, -⟩, hd⟩
        refine ⟨hI, hc.snoc hd, fun index' hi' => ?_⟩
        cases hi'
        exact ⟨_, mem_append_right _ (mem_singleton_self _), hd⟩
      · intro r
        apply Triple.pure
        intro b hb
        simpa using hb

theorem DependencyLoop.dependencies (h : DependencyLoop env run v I Fact E) :
    Triple (I []) (runTaskDependencies env run v v.task.deps none)
      (fun es b => I (dependencyVisits env v) b ∧
        Collected Fact (dependencyVisits env v) es b ∧
        ∀ dep ∈ v.task.deps, Resolves env dep.target) E := by
  have hl (d : List TaskDependencyConfig) (done : List TaskVisit) (is : List Nat) (ps : Option Nat)
      (hsplit : dependencyVisits env v = done ++ d.flatMap (fun dep =>
        (resolved env dep.target).map (v.dependency dep))) :
      Triple (Progress (I done) Fact done is ps) (runTaskDependencies env run v d ps)
        (fun es b => I (dependencyVisits env v) b ∧
          Collected Fact (dependencyVisits env v) (is ++ es) b ∧
          ∀ dep ∈ d, Resolves env dep.target) E := by
    induction d generalizing done is ps with
    | nil =>
      apply Triple.pure
      rintro b ⟨hI, hc, -⟩
      rw [hsplit]
      simpa using ⟨hI, hc⟩
    | cons dep d ih =>
      unfold runTaskDependencies
      apply Triple.orFail_bind
      · intro ds ht
        have hr : resolved env dep.target = ds := by
          unfold resolved
          rw [ht]
        rw [flatMap_cons, hr] at hsplit
        apply Triple.bind (h.tasks dep ds done _ hsplit is ps)
        rintro ⟨f, ps'⟩
        apply Triple.bind (ih _ (is ++ f) ps' (by rw [hsplit, append_assoc]))
        intro rest
        apply Triple.pure
        rintro b ⟨hI, hc, hrv⟩
        refine ⟨hI, by simpa using hc, fun o ho => ?_⟩
        rcases mem_cons.mp ho with rfl | hrs
        · exact ⟨ds, ht⟩
        · exact hrv o hrs
      · rintro e b ⟨hI, -⟩
        exact h.error done e b hI
  apply (hl v.task.deps [] [] none rfl).pre _
  intro b hI
  exact ⟨hI, ⟨by simp, by simp⟩, fun index hi => by cases hi⟩

theorem runTaskDependents_rule
    (hv : ∀ done dep rest, dependentVisits env v = done ++ dep :: rest →
      Triple (I done) (run dep) (fun _ => I (done ++ [dep])) E)
    (her : ∀ done e b, I done b → E (.workspace e) b) :
    Triple (I []) (runTaskDependents env run v (env.workspace.taskDependents v.task.target))
      (fun _ => I (dependentVisits env v)) E := by
  have ht (ds : List Task) (done rest : List TaskVisit)
      (hsplit : dependentVisits env v = done ++ (ds.map v.dependent ++ rest)) :
      Triple (I done) (runDependentTasks run v ds) (fun _ => I (done ++ ds.map v.dependent)) E := by
    induction ds generalizing done with
    | nil =>
      apply Triple.pure
      intro b hb
      simpa using hb
    | cons d ds ih =>
      unfold runDependentTasks
      apply Triple.bind (hv done _ _ hsplit)
      intro _
      have hr := ih (done ++ [v.dependent d]) (by rw [hsplit]; simp)
      rw [append_assoc] at hr
      exact hr
  have hl (ts : List Target) (done : List TaskVisit)
      (hsplit : dependentVisits env v = done ++ ts.flatMap (fun t =>
        (resolved env t).map v.dependent)) :
      Triple (I done) (runTaskDependents env run v ts) (fun _ => I (dependentVisits env v)) E := by
    induction ts generalizing done with
    | nil =>
      apply Triple.pure
      intro b hb
      rw [hsplit]
      simpa using hb
    | cons t ts ih =>
      unfold runTaskDependents
      apply Triple.orFail_bind
      · intro ds hd
        have hrsv : resolved env t = ds := by
          unfold resolved
          rw [hd]
        rw [flatMap_cons, hrsv] at hsplit
        apply Triple.bind (ht ds done _ hsplit)
        intro _
        exact ih _ (by rw [hsplit, append_assoc])
      · intro e b hI
        exact her done e b hI
  exact hl _ [] rfl

end

end Moon.Proofs.Builder
