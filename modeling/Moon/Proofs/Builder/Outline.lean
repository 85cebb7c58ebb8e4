import Moon.Proofs.Builder.Visits

/-!
# Proof outlines of task visits

`internal_run_task` calls itself for dependencies and dependents. An outline names what holds at its
program points, and is valid if each step leads from one point to the next.
-/

namespace Moon.Proofs.Builder

open Moon.Lib ActionGraphBuilder List

variable {step : DependentsStep} {r : Option Nat}

variable {A G : Type}

variable (v : TaskVisit)

section

variable (b : ActionGraphBuilder A)

def passThrough : ActionGraphBuilder A :=
  { b with passthroughTargets := insert v.task.target b.passthroughTargets }

def takeRecords : ActionGraphBuilder A :=
  { b with
    ignoredDependencies :=
      if v.shouldRunDependencies then b.ignoredDependencies.erase v.task.target
      else b.ignoredDependencies
    ignoredDependents :=
      if v.shouldRunDependents then b.ignoredDependents.erase v.task.target
      else b.ignoredDependents }

def hadIgnoredDependencies : Bool :=
  v.shouldRunDependencies && (b.ignoredDependencies.lookup v.task.target).isSome

def hadIgnoredDependents : Bool :=
  v.shouldRunDependents && decide (v.task.target ∈ b.ignoredDependents)

end

def addTask (n : RunTaskNode) (b : ActionGraphBuilder A) : ActionGraphBuilder A :=
  { b with graph := b.graph.addNode (.runTask n) }

def ignoreDependencies (b : ActionGraphBuilder A) : ActionGraphBuilder A :=
  if v.task.deps.isEmpty then b
  else { b with
    ignoredDependencies := b.ignoredDependencies.insert v.task.target
      (v.task.deps.map (·.target)) }

def ignoreDependents (b : ActionGraphBuilder A) : ActionGraphBuilder A :=
  { b with ignoredDependents := insert v.task.target b.ignoredDependents }

inductive DependentsStep
  | expand
  | ignore
  | keep

def revisitStep (b : ActionGraphBuilder A) : DependentsStep :=
  if hadIgnoredDependents v b then .expand else .keep

def insertStep : DependentsStep := if v.shouldRunDependents then .expand else .ignore

lemma revisitStep_expand (b : ActionGraphBuilder A) (h : revisitStep v b = .expand) :
    v.shouldRunDependents := by
  have hh : hadIgnoredDependents v b := by
    by_contra hh
    simp [revisitStep, hh] at h
  exact (Bool.and_eq_true_iff.mp hh).1

lemma insertStep_expand (h : insertStep v = .expand) : v.shouldRunDependents := by
  by_contra hs
  simp [insertStep, hs] at h

/-- Assertions at the program points of `internal_run_task`. An outline may have a ghost
argument that differs from visit to visit. -/
structure Outline (A G : Type) where
  pre : G → TaskVisit → ActionGraphBuilder A → Prop
  /-- The task is affected. -/
  ready : G → TaskVisit → ActionGraphBuilder A → Prop
  /-- Some dependencies of the node are visited, and none is linked. -/
  expanding : G → TaskVisit → DependentsStep → List TaskVisit → ActionGraphBuilder A → Prop
  linked : G → TaskVisit → DependentsStep → ActionGraphBuilder A → Prop
  /-- Some dependents of the task are visited. -/
  reporting : G → TaskVisit → Option Nat → List TaskVisit → ActionGraphBuilder A → Prop
  post : G → TaskVisit → Option Nat → ActionGraphBuilder A → Prop
  /-- What is known of the result for a dependency, as long as the graph grows. -/
  fact : TaskVisit → Option Nat → ActionGraphBuilder A → Prop
  error : ActionGraphError → Prop

/-- A visit is checked, and left out or passed through. -/
structure Outline.Starts (env : BuilderEnv A) (o : Outline A G) : Prop where
  failed : ∀ e, NoCycle env e → o.error e
  checked : ∀ g x b answer b', WellFormed env b → o.pre g x b →
    (isTaskAffected env x.task x.reqs).run b = .ok answer b' →
    b' = { b with affected := b'.affected } →
    if answer then o.ready g x b' else o.post g x none b'
  skipped : ∀ g x b, o.ready g x b → x.task.target ∈ b.passthroughTargets → o.post g x none b
  passed : ∀ g x b, o.ready g x b → x.task.target ∉ b.passthroughTargets →
    x.isPassthrough = true →
    if x.shouldRunDependents then o.reporting g x none [] (passThrough x b)
    else o.post g x none (passThrough x b)

/-- The task has a node already. -/
structure Outline.Revisits (env : BuilderEnv A) (o : Outline A G) : Prop where
  revisited : ∀ g x b, WellFormed env b → o.ready g x b →
    x.task.target ∉ b.passthroughTargets → x.isPassthrough = false →
    HasNode b (x.node env.fxHash) →
    if hadIgnoredDependencies x b then o.expanding g x (revisitStep x b) [] (takeRecords x b)
    else o.linked g x (revisitStep x b) (takeRecords x b)

/-- The task gets its node. -/
structure Outline.Inserts (env : BuilderEnv A) (o : Outline A G) : Prop where
  inserted : ∀ g x b b', WellFormed env b → WellFormed env b' → o.ready g x b →
    x.task.target ∉ b.passthroughTargets → x.isPassthrough = false →
    ¬ HasNode b (x.node env.fxHash) → SetupFrame env (takeRecords x b) b' →
    if x.shouldRunDependencies then
      o.expanding g x (insertStep x) [] (addTask (x.node env.fxHash) b')
    else
      ∀ b'', Links (ignoreDependencies x (addTask (x.node env.fxHash) b'))
        (x.node env.fxHash) (fun _ => False) b'' → o.linked g x (insertStep x) b''

/-- Its dependencies are visited one after another, and linked. -/
structure Outline.Expands (env : BuilderEnv A) (o : Outline A G) : Prop where
  dependency : ∀ g x step done dep rest, dependencyVisits env x = done ++ dep :: rest →
    ∀ b, WellFormed env b → o.expanding g x step done b → ∃ g', o.pre g' dep b ∧
      ∀ r b', WellFormed env b' → Grows b b' →
        (∀ index, r = some index → TaskAt b' index (dep.node env.fxHash)) →
        o.post g' dep r b' → o.expanding g x step (done ++ [dep]) b' ∧ o.fact dep r b'
  serial : ∀ g x step done dep rest, dependencyVisits env x = done ++ dep :: rest →
    x.task.options.runDepsInParallel = false → ∀ earlier ∈ done, ∀ b b', WellFormed env b →
    o.expanding g x step (done ++ [dep]) b →
    Ordered b (dep.node env.fxHash) (earlier.node env.fxHash) b' →
    o.expanding g x step (done ++ [dep]) b'
  link : ∀ g x step b b' targets, WellFormed env b →
    o.expanding g x step (dependencyVisits env x) b → HasNode b (x.node env.fxHash) →
    (∀ m, targets m → ∃ dep ∈ dependencyVisits env x, m = dep.node env.fxHash ∧
      ∃ index, o.fact dep (some index) b) →
    (∀ dep ∈ dependencyVisits env x, targets (dep.node env.fxHash) ∨ o.fact dep none b) →
    (∀ dep ∈ x.task.deps, Resolves env dep.target) →
    Links b (x.node env.fxHash) targets b' → o.linked g x step b'
  cycle : ∀ g x step b, WellFormed env b → o.expanding g x step (dependencyVisits env x) b →
    ∀ dep ∈ dependencyVisits env x, Relation.ReflTransGen (HasEdge b) (dep.node env.fxHash)
      (x.node env.fxHash) → ∀ e, o.error e

/-- Its dependents are visited, or left out. -/
structure Outline.Reports (env : BuilderEnv A) (o : Outline A G) : Prop where
  reported : ∀ g x step index b, WellFormed env b → o.linked g x step b →
    TaskAt b index (x.node env.fxHash) →
    match step with
    | .expand => o.reporting g x (some index) [] b
    | .ignore => o.post g x (some index) (ignoreDependents x b)
    | .keep => o.post g x (some index) b
  dependent : ∀ g x r done dep rest, dependentVisits env x = done ++ dep :: rest →
    ∀ b, WellFormed env b → o.reporting g x r done b → ∃ g', o.pre g' dep b ∧
      ∀ r' b', WellFormed env b' → Grows b b' → o.post g' dep r' b' →
        o.reporting g x r (done ++ [dep]) b'
  finished : ∀ g x r b, WellFormed env b → o.reporting g x r (dependentVisits env x) b →
    o.post g x r b
  mono : ∀ dep r b b', Grows b b' → o.fact dep r b → o.fact dep r b'

structure Outline.Valid (env : BuilderEnv A) (o : Outline A G) : Prop extends
  o.Starts env, o.Revisits env, o.Inserts env, o.Expands env, o.Reports env

structure Outline.Ends (env : BuilderEnv A) (o : Outline A G) (g : G) (x : TaskVisit)
    (b : ActionGraphBuilder A) (r : Option Nat) (b' : ActionGraphBuilder A) : Prop where
  wellFormed : WellFormed env b'
  grows : Grows b b'
  taskAt : ∀ index, r = some index → TaskAt b' index (x.node env.fxHash)
  post : o.post g x r b'

def Outline.Runs (env : BuilderEnv A) (o : Outline A G)
    (run : TaskVisit → BuildM A (Option Nat)) : Prop :=
  ∀ g x b, WellFormed env b → o.pre g x b →
    Triple (fun s => s = b) (run x) (o.Ends env g x b) (fun e _ => o.error e)

variable {E : ActionGraphError → ActionGraphBuilder A → Prop}

section

variable {env : BuilderEnv A} {b b' : ActionGraphBuilder A}

lemma WellFormed.congr (hwf : WellFormed env b) (hg : b'.graph = b.graph)
    (hr : b'.requirements = b.requirements) (hs : b'.serialEdges = b.serialEdges) :
    WellFormed env b' := by
  refine ⟨?_, ?_, ?_, ?_, ?_⟩
  · rw [hg]
    exact hwf.nodup
  · rw [hg]
    exact hwf.allowed
  · rw [hg, hr, hs]
    exact hwf.edges
  · rw [hg, hr]
    exact hwf.requirements
  · simp only [taskAt_congr (congrArg ActionGraph.nodes hg)]
    rw [hg, hs]
    exact hwf.serialEdges

lemma grows_congr (hg : b'.graph = b.graph) (hr : b'.requirements = b.requirements)
    (hpass : b.passthroughTargets ⊆ b'.passthroughTargets) : Grows b b' := by
  refine ⟨?_, ?_, ?_, hpass⟩
  · rw [hg]
  · rw [hg]
    exact List.Subset.refl _
  · rw [hr]
    exact List.Subset.refl _

lemma grows_takeRecords (x : TaskVisit) (b : ActionGraphBuilder A) : Grows b (takeRecords x b) :=
  grows_congr rfl rfl (List.Subset.refl _)

lemma WellFormed.takeRecords (hwf : WellFormed env b) (x : TaskVisit) :
    WellFormed env (takeRecords x b) :=
  hwf.congr rfl rfl rfl

section

variable (n : RunTaskNode) (b : ActionGraphBuilder A)

lemma grows_addTask : Grows b (addTask n b) :=
  ⟨prefix_append _ _, List.Subset.refl _, List.Subset.refl _, List.Subset.refl _⟩

lemma taskAt_addTask : TaskAt (addTask n b) b.graph.nodes.length n :=
  getElem?_concat_length

lemma taskAt_addTask_iff (index : Nat) (m : RunTaskNode) :
    TaskAt (addTask n b) index m ↔ TaskAt b index m ∨ (index = b.graph.nodes.length ∧ m = n) := by
  change (b.graph.nodes ++ [ActionNode.runTask n])[index]? = some (.runTask m) ↔
    b.graph.nodes[index]? = some (.runTask m) ∨ _
  by_cases hl : index < b.graph.nodes.length
  · rw [getElem?_append_left hl]
    simp [hl.ne]
  · rw [getElem?_append_right (Nat.le_of_not_lt hl), getElem?_eq_none (Nat.le_of_not_lt hl)]
    by_cases heq : index = b.graph.nodes.length
    · simp [heq, eq_comm]
    · have hp : index - b.graph.nodes.length ≠ 0 := by omega
      simp [heq, hp]

lemma hasNode_addTask (m : RunTaskNode) : HasNode (addTask n b) m ↔ HasNode b m ∨ m = n := by
  change ActionNode.runTask m ∈ b.graph.nodes ++ [ActionNode.runTask n] ↔ _
  simp [HasNode]

end

lemma linked_addTask {ps : List (Nat × Nat)} (n : RunTaskNode) {b : ActionGraphBuilder A}
    (hp : ∀ e ∈ ps, e ∈ b.graph.edges) (a m : RunTaskNode) :
    Linked (addTask n b) ps a m ↔ Linked b ps a m := by
  constructor
  · rintro ⟨i, j, hi, hj, hm⟩
    have hl := b.graph.edges_lt _ (hp _ hm)
    rcases (taskAt_addTask_iff n b i a).mp hi with hi | ⟨rfl, -⟩
    · rcases (taskAt_addTask_iff n b j m).mp hj with hj | ⟨rfl, -⟩
      · exact ⟨i, j, hi, hj, hm⟩
      · exact absurd hl.2 (Nat.lt_irrefl _)
    · exact absurd hl.1 (Nat.lt_irrefl _)
  · rintro ⟨i, j, hi, hj, hm⟩
    exact ⟨i, j, (grows_addTask n b).getElem? hi, (grows_addTask n b).getElem? hj, hm⟩

lemma hasEdge_addTask (n : RunTaskNode) (b : ActionGraphBuilder A) (a m : RunTaskNode) :
    HasEdge (addTask n b) a m ↔ HasEdge b a m :=
  linked_addTask n (fun _ h => h) a m

lemma WellFormed.hasRequirement_addTask (hwf : WellFormed env b) (n a m : RunTaskNode) :
    HasRequirement (addTask n b) a m ↔ HasRequirement b a m :=
  linked_addTask n hwf.requirements a m

lemma hasRequirement_congr (hg : b'.graph = b.graph)
    (hr : b'.requirements = b.requirements) (n m : RunTaskNode) :
    HasRequirement b' n m ↔ HasRequirement b n m := by
  unfold HasRequirement Linked TaskAt
  rw [hg, hr]

lemma hasEdge_congr (hg : b'.graph = b.graph) (n m : RunTaskNode) :
    HasEdge b' n m ↔ HasEdge b n m := by
  unfold HasEdge Linked TaskAt
  rw [hg]

section

variable (x : TaskVisit) (b : ActionGraphBuilder A)

@[simp] lemma ignoreDependencies_graph :
    (ignoreDependencies x b).graph = b.graph := by
  unfold ignoreDependencies
  split_ifs <;> rfl

@[simp] lemma ignoreDependencies_requirements :
    (ignoreDependencies x b).requirements = b.requirements := by
  unfold ignoreDependencies
  split_ifs <;> rfl

lemma lookup_ignoreDependencies (t : Target) :
    (ignoreDependencies x b).ignoredDependencies.lookup t =
      if t = x.task.target ∧ x.task.deps ≠ [] then some (x.task.deps.map (·.target))
      else b.ignoredDependencies.lookup t := by
  unfold ignoreDependencies
  by_cases hd : x.task.deps = []
  · simp [hd]
  · have hn : x.task.deps.isEmpty = false := by simpa using hd
    rw [hn]
    simp only [Bool.false_eq_true, if_false, Map.lookup_insert_eq, hd, ne_eq,
      not_false_eq_true, and_true]

end

section

variable {x : TaskVisit} {n : RunTaskNode}
  (hl : Links (ignoreDependencies x b) n (fun _ => False) b')
include hl

lemma Links.hasNode_ignoring (m : RunTaskNode) : HasNode b' m ↔ HasNode b m := by
  unfold HasNode
  rw [hl.nodes, ignoreDependencies_graph]

lemma Links.hasRequirement_ignoring (a m : RunTaskNode) :
    HasRequirement b' a m ↔ HasRequirement b a m := by
  rw [hl.hasRequirement, hasRequirement_congr (ignoreDependencies_graph x b)
    (ignoreDependencies_requirements x b)]
  simp only [and_false, or_false]

lemma Links.lookup_ignoring (t : Target) : b'.ignoredDependencies.lookup t =
    if t = x.task.target ∧ x.task.deps ≠ [] then some (x.task.deps.map (·.target))
    else b.ignoredDependencies.lookup t := by
  rw [hl.rest]
  exact lookup_ignoreDependencies x b t

end

lemma WellFormed.ignoreDependencies (hwf : WellFormed env b) (x : TaskVisit) :
    WellFormed env (ignoreDependencies x b) := by
  unfold Builder.ignoreDependencies
  split_ifs
  · exact hwf
  · exact hwf.congr rfl rfl rfl

lemma grows_ignoreDependencies (x : TaskVisit) (b : ActionGraphBuilder A) :
    Grows b (ignoreDependencies x b) := by
  unfold Builder.ignoreDependencies
  split_ifs
  · exact Grows.refl b
  · exact grows_congr rfl rfl (List.Subset.refl _)

lemma takeIgnoredDependencies_spec (x : TaskVisit) :
    Triple (fun s => s = b) (takeIgnoredDependencies x) (fun r b' =>
      r = hadIgnoredDependencies x b ∧ b' = { b with
        ignoredDependencies :=
          if x.shouldRunDependencies then b.ignoredDependencies.erase x.task.target
          else b.ignoredDependencies }) E := by
  rintro s rfl
  unfold takeIgnoredDependencies hadIgnoredDependencies
  cases x.shouldRunDependencies <;> exact ⟨rfl, rfl⟩

lemma takeIgnoredDependents_spec (x : TaskVisit) :
    Triple (fun s => s = b) (takeIgnoredDependents x) (fun r b' =>
      r = hadIgnoredDependents x b ∧ b' = { b with
        ignoredDependents :=
          if x.shouldRunDependents then b.ignoredDependents.erase x.task.target
          else b.ignoredDependents }) E := by
  rintro s rfl
  unfold takeIgnoredDependents hadIgnoredDependents
  cases x.shouldRunDependents <;> exact ⟨rfl, rfl⟩

end

section

variable {env : BuilderEnv A} {o : Outline A G} {run : TaskVisit → BuildM A (Option Nat)}
  {g : G} {x : TaskVisit} {b : ActionGraphBuilder A}

def Outline.result (env : BuilderEnv A) (o : Outline A G) (dep : TaskVisit) (r : Option Nat)
    (b : ActionGraphBuilder A) : Prop :=
  o.fact dep r b ∧ ∀ index, r = some index → TaskAt b index (dep.node env.fxHash)

lemma Outline.Valid.dependencies (h : o.Valid env) (hrun : o.Runs env run)
    (hwf : WellFormed env b) (hb : o.expanding g x step [] b) :
    Triple (fun s => s = b) (runTaskDependencies env run x x.task.deps none)
      (fun es b' => (WellFormed env b' ∧ Grows b b' ∧
        o.expanding g x step (dependencyVisits env x) b') ∧
        Collected (o.result env) (dependencyVisits env x) es b' ∧
        ∀ dep ∈ x.task.deps, Resolves env dep.target) (fun e _ => o.error e) := by
  have hl : DependencyLoop env run x (fun d b' => WellFormed env b' ∧ Grows b b' ∧
      o.expanding g x step d b') (o.result env) (fun e _ => o.error e) := by
    refine ⟨?_, ?_, ?_, ?_⟩
    · rintro d dep re hsp s ⟨hs, hg, hex⟩
      obtain ⟨g', hp, hps⟩ := h.dependency g x step d dep re hsp s hs hex
      apply (hrun g' dep s hs hp).post _
      intro r b' hen
      obtain ⟨hnx, hf⟩ := hps r b' hen.wellFormed hen.grows hen.taskAt hen.post
      exact ⟨hen.grows, ⟨hen.wellFormed, hg.trans hen.grows, hnx⟩, hf, hen.taskAt⟩
    · rintro hsr d dep re hsp ea her index ps s ⟨hs, hg, hex⟩ hd hpr
      have hn := hd.2 index rfl
      have he := hpr.2 ps rfl
      exact ⟨hs.linkSerial hn he, hg.trans (linkSerialRequirements_grows s index ps),
        h.serial g x step d dep re hsp hsr ea her s _ hs hex (hs.ordered hn he)⟩
    · intro dep r s s' hg hr
      exact ⟨h.mono dep r s s' hg hr.1, fun index hi => hg.getElem? (hr.2 index hi)⟩
    · intro d e s _
      exact h.failed _ (fun _ => rfl)
  apply hl.dependencies.pre _
  rintro s rfl
  exact ⟨hwf, Grows.refl s, hb⟩

variable {index : Nat}

lemma Outline.Valid.linkTargets (h : o.Valid env) (se es : List Nat)
    (hwf : WellFormed env b) (hn : TaskAt b index (x.node env.fxHash))
    (hsu : ∀ i ∈ se, SetupNode b i) (hb : o.expanding g x step (dependencyVisits env x) b)
    (hes : Collected (o.result env) (dependencyVisits env x) es b)
    (hrv : ∀ dep ∈ x.task.deps, Resolves env dep.target) :
    Triple (fun s => s = b) (linkRequirements index (se ++ es))
      (fun _ b' => WellFormed env b' ∧ Grows b b' ∧ o.linked g x step b')
      (fun e _ => o.error e) := by
  have hts (j : Nat) (hj : j ∈ se ++ es) (m : RunTaskNode) (hm : TaskAt b j m) : j ∈ es := by
    rcases mem_append.mp hj with hj | hj
    · obtain ⟨node, hnd, hk⟩ := hsu j hj
      rw [show b.graph.nodes[j]? = some (.runTask m) from hm] at hnd
      cases hnd
      cases hk
    · exact hj
  apply Triple.linkRequirements
  · rintro s b' rfl hs
    refine ⟨hwf.linkTask hs hn, hs.grows, ?_⟩
    apply h.link g x step s b' _ hwf hb hn.hasNode ?_ ?_ hrv (hs.links hn)
    · rintro m ⟨j, hj, hm⟩
      obtain ⟨dep, hd, hf, ht⟩ := hes.edges j (hts j hj m hm)
      exact ⟨dep, hd, hm.unique (ht j rfl), j, hf⟩
    · intro dep hd
      obtain ⟨r, ⟨hf, ht⟩, hme⟩ := hes.results dep hd
      cases r with
      | none => exact .inr hf
      | some j => exact .inl ⟨j, mem_append_right _ (hme j rfl), ht j rfl⟩
  · rintro s e b' rfl ⟨j, hj, hr⟩
    by_cases hl : j < s.graph.nodes.length
    · obtain ⟨m, hm, hp⟩ := hwf.reach_task (hr hn.lt hl) hn
      obtain ⟨dep, hd, -, ht⟩ := hes.edges j (hts j hj m hm)
      rw [hm.unique (ht j rfl)] at hp
      exact h.cycle g x step s hwf hb dep hd hp e
    · -- an index outside the graph is no result of a visit
      rcases mem_append.mp hj with hj | hj
      · obtain ⟨node, hnd, -⟩ := hsu j hj
        exact absurd (List.getElem?_eq_some_iff.mp hnd).1 hl
      · obtain ⟨dep, -, -, ht⟩ := hes.edges j hj
        exact absurd (ht j rfl).lt hl

lemma Outline.Valid.dependents (h : o.Valid env) (hrun : o.Runs env run)
    (hwf : WellFormed env b) (hb : o.reporting g x r [] b)
    (hr : ∀ index, r = some index → TaskAt b index (x.node env.fxHash)) :
    Triple (fun s => s = b) (runTaskDependents env run x
      (env.workspace.taskDependents x.task.target))
      (fun _ b' => o.Ends env g x b r b') (fun e _ => o.error e) := by
  apply (runTaskDependents_rule
    (I := fun d b' => WellFormed env b' ∧ Grows b b' ∧ o.reporting g x r d b')
    (E := fun e _ => o.error e) ?_ ?_).conseq
  · rintro s rfl
    exact ⟨hwf, Grows.refl s, hb⟩
  · rintro _ b' ⟨hw', hg, hrp⟩
    exact ⟨hw', hg, fun index hi => hg.getElem? (hr index hi), h.finished g x r b' hw' hrp⟩
  · exact fun _ _ he => he
  · rintro d dep rest hsp s ⟨hs, hg, hrp⟩
    obtain ⟨g', hp, hps⟩ := h.dependent g x r d dep rest hsp s hs hrp
    apply (hrun g' dep s hs hp).post _ s rfl
    intro r' b' hen
    exact ⟨hen.wellFormed, hg.trans hen.grows, hps r' b' hen.wellFormed hen.grows hen.post⟩
  · intro d e s _
    exact h.failed _ (fun _ => rfl)

lemma Outline.Ends.of_grows {b₀ b' : ActionGraphBuilder A}
    (h : o.Ends env g x b r b') (hg : Grows b₀ b) : o.Ends env g x b₀ r b' :=
  ⟨h.wellFormed, hg.trans h.grows, h.taskAt, h.post⟩

section

variable (h : o.Valid env) (hrun : o.Runs env run)

include h hrun

lemma Outline.Valid.keepOrExpand (expand : Bool)
    (hwf : WellFormed env b) (hn : TaskAt b index (x.node env.fxHash))
    (hb : o.linked g x (if expand then .expand else .keep) b) :
    Triple (fun s => s = b) (do
      expandDependents env run x expand
      return some index) (o.Ends env g x b) (fun e _ => o.error e) := by
  have hr := h.reported g x _ index b hwf hb hn
  have ht (i : Nat) (hi : some index = some i) : TaskAt b i (x.node env.fxHash) := by
    cases hi
    exact hn
  apply Triple.bind (M := fun _ b' => o.Ends env g x b (some index) b')
  · unfold expandDependents
    cases expand with
    | true => exact h.dependents hrun hwf hr ht
    | false =>
      apply Triple.pure
      rintro s rfl
      exact ⟨hwf, Grows.refl s, ht, hr⟩
  · intro _
    exact Triple.pure (fun _ hs => hs)

lemma Outline.Valid.ignoreOrExpand (hwf : WellFormed env b)
    (hn : TaskAt b index (x.node env.fxHash)) (hb : o.linked g x (insertStep x) b) :
    Triple (fun s => s = b) (do
      expandOrIgnoreDependents env run x
      return some index) (o.Ends env g x b) (fun e _ => o.error e) := by
  have hr := h.reported g x _ index b hwf hb hn
  have ht (i : Nat) (hi : some index = some i) : TaskAt b i (x.node env.fxHash) := by
    cases hi
    exact hn
  apply Triple.bind (M := fun _ b' => o.Ends env g x b (some index) b')
  · unfold expandOrIgnoreDependents
    unfold insertStep at hr
    cases hsc : x.shouldRunDependents with
    | true =>
      rw [hsc] at hr
      exact h.dependents hrun hwf hr ht
    | false =>
      rw [hsc] at hr
      apply Triple.modify
      rintro s rfl
      exact ⟨hwf.congr rfl rfl rfl, grows_congr rfl rfl (List.Subset.refl _), ht, hr⟩
  · intro _
    exact Triple.pure (fun _ hs => hs)

lemma Outline.Valid.revisitNode (hwf : WellFormed env b)
    (hb : o.ready g x b) (htarget : x.task.target ∉ b.passthroughTargets)
    (hpass : x.isPassthrough = false) (hn : TaskAt (takeRecords x b) index (x.node env.fxHash)) :
    Triple (fun s => s = takeRecords x b) (revisitNode env run x index
      (hadIgnoredDependencies x b) (hadIgnoredDependents x b))
      (o.Ends env g x b) (fun e _ => o.error e) := by
  have hr := h.revisited g x b hwf hb htarget hpass hn.hasNode
  have hw' := hwf.takeRecords x
  have hg := grows_takeRecords x b
  unfold ActionGraphBuilder.revisitNode expandIgnoredDependencies
  cases hh : hadIgnoredDependencies x b with
  | true =>
    rw [hh] at hr
    apply Triple.bind_at (h.dependencies hrun hw' hr)
    rintro es b₁ ⟨⟨hw₁, hg₁, hex⟩, hes, hrs⟩
    have hn₁ := hg₁.getElem? hn
    apply Triple.bind_at (h.linkTargets [] es hw₁ hn₁ (by simp) hex hes hrs)
    rintro _ b₂ ⟨hw₂, hg₂, hl⟩
    apply (h.keepOrExpand hrun (hadIgnoredDependents x b) hw₂ (hg₂.getElem? hn₁) hl).post _
    intro r b' hen
    exact hen.of_grows (hg.trans (hg₁.trans hg₂))
  | false =>
    rw [hh] at hr
    apply (h.keepOrExpand hrun (hadIgnoredDependents x b) hw' hn hr).post _
    intro r b' hen
    exact hen.of_grows hg

end

lemma linkSetup_spec {se : List Nat} {n : RunTaskNode} (hwf : WellFormed env b)
    (hn : TaskAt b index n) (hsu : ∀ i ∈ se, SetupNode b i) :
    Triple (fun s => s = b) (linkRequirements index se)
      (fun _ b' => WellFormed env b' ∧ Grows b b' ∧ Links b n (fun _ => False) b') E := by
  have hnt (j : Nat) (hj : j ∈ se) (m : RunTaskNode) : ¬ TaskAt b j m := by
    intro hm
    obtain ⟨node, hnd, hk⟩ := hsu j hj
    rw [show b.graph.nodes[j]? = some (.runTask m) from hm] at hnd
    cases hnd
    cases hk
  apply Triple.linkRequirements
  · rintro s b' rfl hs
    have hl := hs.links hn
    have hno : (fun m => ∃ j ∈ se, TaskAt s j m) = fun _ => False := by
      funext m
      simp only [eq_iff_iff, iff_false, not_exists, not_and]
      exact fun j hj => hnt j hj m
    rw [hno] at hl
    exact ⟨hwf.linkTask hs hn, hs.grows, hl⟩
  · rintro s e b' rfl ⟨j, hj, hr⟩
    obtain ⟨node, hnd, -⟩ := hsu j hj
    obtain ⟨m, hm, -⟩ := hwf.reach_task (hr hn.lt (List.getElem?_eq_some_iff.mp hnd).1) hn
    exact absurd hm (hnt j hj m)

lemma dependencyVisits_of_isEmpty (hd : x.task.deps.isEmpty) : dependencyVisits env x = [] := by
  unfold dependencyVisits
  rw [isEmpty_iff.mp hd]
  rfl

lemma Outline.Valid.expandInScope (h : o.Valid env) (hrun : o.Runs env run)
    (hwf : WellFormed env b) (hb : o.expanding g x step [] b)
    (hs : x.shouldRunDependencies) :
    Triple (fun s => s = b) (expandDependencies env run x)
      (fun es b' => (WellFormed env b' ∧ Grows b b' ∧
        o.expanding g x step (dependencyVisits env x) b') ∧
        Collected (o.result env) (dependencyVisits env x) es b' ∧
        ∀ dep ∈ x.task.deps, Resolves env dep.target) (fun e _ => o.error e) := by
  unfold expandDependencies
  apply Triple.ite
  · intro hd
    rw [dependencyVisits_of_isEmpty hd]
    apply Triple.pure
    rintro s rfl
    exact ⟨⟨hwf, Grows.refl s, hb⟩, ⟨by simp, by simp⟩, by simp [isEmpty_iff.mp hd]⟩
  · intro _
    rw [hs]
    exact h.dependencies hrun hwf hb

lemma expandDependencies_outOfScope (hs : x.shouldRunDependencies = false) :
    Triple (fun s => s = b) (expandDependencies env run x)
      (fun es b' => es = [] ∧ b' = ignoreDependencies x b) E := by
  rintro s rfl
  unfold expandDependencies ignoreDependencies
  rw [hs]
  cases x.task.deps.isEmpty <;> exact ⟨rfl, rfl⟩

section

variable (h : o.Valid env) (hrun : o.Runs env run) {k : Nat} {p : Project}
  (hwf : WellFormed env b) (hb : o.ready g x b) (htarget : x.task.target ∉ b.passthroughTargets)
  (hpass : x.isPassthrough = false)
include h hrun hwf hb htarget hpass

lemma Outline.Valid.visitNewNode (hn : ¬ HasNode b (x.node env.fxHash)) :
    Triple (fun s => s = takeRecords x b) (visitNewNode env k run p x)
      (o.Ends env g x b) (fun e _ => o.error e) := by
  unfold ActionGraphBuilder.visitNewNode
  apply Triple.bind_at ((initialEdges_spec k p x (hwf.takeRecords x)).conseq
    (fun _ hs => hs) (fun _ _ hs => hs) (fun e _ he => h.failed e he))
  rintro se b₁ ⟨hw₁, hf, hsu⟩
  have hin := h.inserted g x b b₁ hwf hw₁ hb htarget hpass hn hf
  have hn₁ : ¬ HasNode b₁ (x.node env.fxHash) := by
    rw [hf.hasNode_iff]
    exact hn
  apply Triple.bind_at (M := fun index b₂ => index = b₁.graph.nodes.length ∧
    b₂ = addTask (x.node env.fxHash) b₁)
  · rintro s rfl
    exact ⟨rfl, rfl⟩
  rintro index b₂ ⟨rfl, rfl⟩
  have hw₂ : WellFormed env (addTask (x.node env.fxHash) b₁) := hw₁.addNode hn₁
  have hg₂ := (grows_takeRecords x b).trans (hf.grows.trans (grows_addTask (x.node env.fxHash) b₁))
  have hn₂ := taskAt_addTask (x.node env.fxHash) b₁
  have hs₂ (i : Nat) (hi : i ∈ se) (b' : ActionGraphBuilder A)
      (hg : Grows (addTask (x.node env.fxHash) b₁) b') : SetupNode b' i := by
    obtain ⟨node, hnd, hk⟩ := hsu i hi
    exact ⟨node, hg.getElem? ((grows_addTask _ b₁).getElem? hnd), hk⟩
  cases hsc : x.shouldRunDependencies with
  | true =>
    rw [hsc] at hin
    apply Triple.bind_at (h.expandInScope hrun hw₂ hin hsc)
    rintro es b₃ ⟨⟨hw₃, hg₃, hex⟩, hes, hr⟩
    have hn₃ := hg₃.getElem? hn₂
    apply Triple.bind_at (h.linkTargets se es hw₃ hn₃ (fun i hi => hs₂ i hi b₃ hg₃) hex hes hr)
    rintro _ b₄ ⟨hw₄, hg₄, hl⟩
    apply (h.ignoreOrExpand hrun hw₄ (hg₄.getElem? hn₃) hl).post _
    intro r b' hen
    exact hen.of_grows (hg₂.trans (hg₃.trans hg₄))
  | false =>
    rw [hsc] at hin
    apply Triple.bind_at (expandDependencies_outOfScope hsc)
    rintro es b₃ ⟨rfl, rfl⟩
    rw [append_nil]
    have hg₃ := grows_ignoreDependencies x (addTask (x.node env.fxHash) b₁)
    have hn₃ := hg₃.getElem? hn₂
    apply Triple.bind_at (linkSetup_spec (hw₂.ignoreDependencies x) hn₃
      (fun i hi => hs₂ i hi _ hg₃))
    rintro _ b₄ ⟨hw₄, hg₄, hln⟩
    apply (h.ignoreOrExpand hrun hw₄ (hg₄.getElem? hn₃) (hin b₄ hln)).post _
    intro r b' hen
    exact hen.of_grows (hg₂.trans (hg₃.trans hg₄))

lemma Outline.Valid.visitNode : Triple (fun s => s = b) (visitNode env k run p x)
      (o.Ends env g x b) (fun e _ => o.error e) := by
  unfold ActionGraphBuilder.visitNode
  apply Triple.bind_at (takeIgnoredDependencies_spec x)
  rintro _ b₁ ⟨rfl, rfl⟩
  apply Triple.bind_at (takeIgnoredDependents_spec x)
  rintro _ b₂ ⟨rfl, rfl⟩
  apply Triple.get_bind
  intro s hs
  split <;> rename_i hi <;> subst hs
  · exact h.revisitNode hrun hwf hb htarget hpass (getIndexFromNode_eq_some hi)
  · exact h.visitNewNode hrun hwf hb htarget hpass (getIndexFromNode_eq_none hi)

end

lemma Outline.Valid.visitPassthrough (h : o.Valid env) (hrun : o.Runs env run)
    (hwf : WellFormed env b) (hb : o.ready g x b)
    (htarget : x.task.target ∉ b.passthroughTargets) (hpass : x.isPassthrough) :
    Triple (fun s => s = b) (visitPassthrough env run x)
      (o.Ends env g x b) (fun e _ => o.error e) := by
  have hp := h.passed g x b hb htarget hpass
  have hw' : WellFormed env (passThrough x b) := hwf.congr rfl rfl rfl
  have hg : Grows b (passThrough x b) := grows_congr rfl rfl (fun _ ht => mem_insert_of_mem ht)
  unfold ActionGraphBuilder.visitPassthrough
  apply Triple.modify_bind (M := fun b' => b' = passThrough x b)
  · rintro s rfl
    rfl
  apply Triple.bind (M := fun _ b' => o.Ends env g x b none b')
  · unfold expandDependents
    cases hsc : x.shouldRunDependents with
    | true =>
      rw [hsc] at hp
      apply (h.dependents hrun hw' hp (by simp)).post _
      intro _ b' hen
      exact hen.of_grows hg
    | false =>
      rw [hsc] at hp
      apply Triple.pure
      rintro s rfl
      exact ⟨hw', hg, by simp, hp⟩
  · intro _
    exact Triple.pure (fun _ hs => hs)

theorem Outline.Valid.runs (h : o.Valid env) (k : Nat) : o.Runs env (internalRunTask env k) := by
  induction k with
  | zero =>
    intro g x b _ _
    exact Triple.throw (fun _ _ => h.failed _ (fun _ => rfl))
  | succ k ih =>
    intro g x b hwf hp
    unfold internalRunTask
    apply Triple.orFail_bind
    · intro p _
      have hc : Triple (fun s => s = b) (isTaskAffected env x.task x.reqs)
          (fun a b' => (WellFormed env b' ∧ Grows b b') ∧
            if a then o.ready g x b' else o.post g x none b') (fun e _ => o.error e) := by
        rintro s rfl
        have hsp := checkAffected_spec x.reqs
          (fun af => env.tracker.isTaskMarked af x.reqs.includeRelations x.task)
          (fun af => env.tracker.affectTask af x.task) s rfl
        cases hr : (isTaskAffected env x.task x.reqs).run s with
        | error e s' =>
          unfold isTaskAffected at hr
          rw [hr] at hsp
          exact h.failed e (fun _ => hsp)
        | ok a s' =>
          have hrs := hr
          unfold isTaskAffected at hrs
          rw [hrs] at hsp
          refine ⟨⟨hsp.wellFormed hwf, ?_⟩, h.checked g x s a s' hwf hp hr hsp.rest⟩
          rw [hsp.rest]
          exact grows_congr rfl rfl (List.Subset.refl _)
      apply Triple.bind_at hc
      rintro a b₁ ⟨⟨hw₁, hg₁⟩, ha⟩
      cases a with
      | false =>
        apply Triple.pure
        rintro s rfl
        exact ⟨hw₁, hg₁, by simp, ha⟩
      | true =>
        apply Triple.get_bind
        rintro s rfl
        have hg (r : Option Nat) (b' : ActionGraphBuilder A)
            (hen : o.Ends env g x s r b') : o.Ends env g x b r b' := hen.of_grows hg₁
        apply Triple.ite
        · intro htarget
          apply Triple.pure
          rintro s' rfl
          exact ⟨hw₁, hg₁, by simp, h.skipped g x s' ha htarget⟩
        · intro htarget
          apply Triple.ite
          · intro hpass
            exact (h.visitPassthrough ih hw₁ ha htarget hpass).post hg
          · intro hpass
            exact (h.visitNode ih hw₁ ha htarget (by simpa using hpass)).post hg
    · intro error s _
      exact h.failed _ (fun _ => rfl)

theorem Outline.Valid.runTask (h : o.Valid env) (k : Nat) {task : Task} {re : RunRequirements}
    (hwf : WellFormed env b) (hp : o.pre g { task := task, reqs := re } b) :
    Triple (fun s => s = b) (runTask env k task re)
      (fun r b' => ∃ b₁, o.Ends env g { task := task, reqs := re } b r b₁ ∧
        b' = { b₁ with primaryTargets := b'.primaryTargets }) (fun e _ => o.error e) := by
  unfold ActionGraphBuilder.runTask
  apply Triple.bind_at (h.runs k g _ b hwf hp)
  intro r b₁ hen
  cases r with
  | none =>
    apply Triple.pure
    rintro s rfl
    exact ⟨s, hen, rfl⟩
  | some index =>
    apply Triple.modify_bind (M := fun b' => b' = { b₁ with
      primaryTargets := insert task.target b₁.primaryTargets })
    · rintro s rfl
      rfl
    · apply Triple.pure
      rintro b' rfl
      exact ⟨b₁, hen, rfl⟩

end

end Moon.Proofs.Builder
