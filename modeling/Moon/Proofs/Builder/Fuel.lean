import Mathlib.Algebra.Order.BigOperators.Ring.Finset
import Moon.Proofs.Builder.Calls
import Moon.Proofs.Builder.Cycles

/-! # Enough fuel -/

namespace Moon.Proofs.Builder

open Moon.Lib ActionGraphBuilder List

variable {A : Type}

/-- The errors that are not the builder's own: something is missing, a plugin or the tracker fails,
toolchains require each other in a cycle, or there is no such job. -/
inductive External (env : BuilderEnv A) : ActionGraphError → Prop
  | scope {target : Target} (h : target.getProjectId = none) :
      External env (.workspace (.projectScopeRequired target.asStr))
  | project {id : String} {error : WorkspaceError}
      (h : env.workspace.getProject id = .error error) : External env (.workspace error)
  | target {target : Target} {error : WorkspaceError}
      (h : env.workspace.resolveTasksFromTarget env.allQuery target true = .error error) :
      External env (.workspace error)
  | locator {locator : TargetLocator} {error : WorkspaceError}
      (h : env.workspace.resolveTasksFromTargetLocator env.allQuery locator false =
        .error error) : External env (.workspace error)
  | load {id : Id} {message : String} (h : env.loadToolchain id = .error message) :
      External env (.plugin message)
  | requirements {id : Id} {toolchain : ToolchainPlugin} {project : Option Id}
      {message : String} (hload : env.loadToolchain id = .ok toolchain)
      (h : toolchain.defineRequirements project = .error message) :
      External env (.plugin message)
  | root {id : Id} {toolchain : ToolchainPlugin} {project : Option Id} {message : String}
      (hload : env.loadToolchain id = .ok toolchain)
      (h : toolchain.locateDependenciesRoot project = .error message) :
      External env (.plugin message)
  | members {workspace : DependenciesWorkspace} {root : WorkspaceRelativePath}
      {message : String} (h : env.inDependenciesWorkspace workspace root = .error message) :
      External env (.plugin message)
  | requirement {id requireId : Id} {project : Option Project}
      (h : env.getSpec requireId project = none) :
      External env (.missingToolchainRequirement id requireId)
  | toolchains {source target : String} (h : ¬ Acyclic (ToolchainRequires env)) :
      External env (.wouldCycle source target)
  | affectProject {marks : A} {project : Project} {message : String}
      (h : env.tracker.affectProject marks project = .error message) :
      External env (.tracker message)
  | affectTask {marks : A} {task : Task} {message : String}
      (h : env.tracker.affectTask marks task = .error message) : External env (.tracker message)
  | job {index total : Nat} (h : total - 1 < index) : External env (.invalidJobIndex index total)

/-- Whatever the builder, the action ends, and it fails for reasons from outside or at a
cycle only. -/
def Completes (env : BuilderEnv A) {α : Type} (x : BuildM A α) : Prop :=
  Triple (fun _ => True) x (fun _ _ => True) (fun e _ => External env e ∨ e.isWouldCycle = true)

namespace Completes

variable {env : BuilderEnv A} {α β : Type} {f : α → BuildM A β}

theorem pure (r : α) : Completes env (pure r : BuildM A α) := Triple.pure (fun _ _ => trivial)

theorem bind {x : BuildM A α} (hx : Completes env x)
    (hf : ∀ r, Completes env (f r)) : Completes env (x >>= f) :=
  Triple.bind hx hf

theorem get_bind {f : ActionGraphBuilder A → BuildM A β} (h : ∀ b, Completes env (f b)) :
    Completes env (get >>= f) :=
  Triple.get_bind_keep (fun b _ => h b)

theorem modify_bind {g : ActionGraphBuilder A → ActionGraphBuilder A}
    {f : PUnit → BuildM A β} (h : Completes env (f ⟨⟩)) :
    Completes env (EStateM.modifyGet (fun b => (⟨⟩, g b)) >>= f) :=
  Triple.modify_bind (fun _ _ => trivial) h

theorem throw {e : ActionGraphError} (h : External env e) : Completes env (throw e : BuildM A α) :=
  Triple.throw (fun _ _ => .inl h)

theorem ite {c : Prop} [Decidable c] {x y : BuildM A α} (hx : c → Completes env x)
    (hy : ¬ c → Completes env y) : Completes env (if c then x else y) :=
  Triple.ite hx hy

theorem orFail_bind {ε : Type} {wrap : ε → ActionGraphError} {result : Except ε α}
    (ho : ∀ r, result = .ok r → Completes env (f r))
    (her : ∀ error, result = .error error → External env (wrap error)) :
    Completes env (orFail wrap result >>= f) := by
  cases result with
  | ok r => exact fun s hs => ho r rfl s hs
  | error error => exact fun _ _ => .inl (her error rfl)

end Completes

section

variable {env : BuilderEnv A}
  {project : Project} {spec : ToolchainSpec} {owner : Option Project} {id : Id}

lemma insertNode_completes (n : ActionNode) : Completes env (insertNode n) :=
  .get_bind (fun _ => .modify_bind (.pure _))

lemma insertNodeIfMissing_completes (n : ActionNode) : Completes env (insertNodeIfMissing n) := by
  unfold insertNodeIfMissing
  apply Completes.get_bind
  intro b
  cases b.getIndexFromNode n with
  | some i => exact .pure i
  | none => exact insertNode_completes n

lemma linkRequirement_completes (i e : Nat) : Completes env (linkRequirement i e) := by
  unfold linkRequirement
  apply Completes.get_bind
  intro b
  apply Completes.ite
  · exact fun _ => Triple.modify (fun _ _ => trivial)
  · intro _
    cases b.graph.addEdge i e with
    | some graph => exact Triple.modify (fun _ _ => trivial)
    | none => exact Triple.throw (fun _ _ => .inr rfl)

lemma linkRequirements_completes (i : Nat) (es : List Nat) :
    Completes env (linkRequirements i es) := by
  induction es with
  | nil => exact .pure ()
  | cons e es ih => exact .bind (linkRequirement_completes i e) (fun _ => ih)

lemma checkAffected_completes (reqs : RunRequirements) (i : A → Bool)
    {a : A → Except String (Option A)}
    (ha : ∀ marks message, a marks = .error message → External env (.tracker message)) :
    Completes env (checkAffected reqs i a) := by
  unfold checkAffected
  apply Completes.get_bind
  intro b
  cases b.affected with
  | none => exact .pure true
  | some marks =>
    apply Completes.ite
    · exact fun _ => .pure true
    · intro _
      apply Completes.orFail_bind _ (ha marks)
      intro answer _
      cases answer with
      | none => exact .pure false
      | some marks' => exact .modify_bind (.pure true)

lemma syncWorkspace_completes : Completes env (syncWorkspace env) :=
  .ite (fun _ => .pure none) (fun _ => .bind (insertNodeIfMissing_completes _) (fun _ => .pure _))

lemma setupRequiredProto_completes (spec : ToolchainSpec) :
    Completes env (setupRequiredProto env spec) :=
  .ite (fun _ => .bind (insertNodeIfMissing_completes _) (fun _ => .pure _)) (fun _ => .pure none)

lemma syncDependencies_completes {s : Project → BuildM A (Option Nat)}
    (hs : ∀ project ∈ env.workspace.projects, Completes env (s project)) (i : Nat)
    (c ids : List Id) : Completes env (syncDependencies env s i c ids) := by
  induction ids with
  | nil => exact .pure []
  | cons id ids ih =>
    unfold syncDependencies
    apply Completes.ite
    · exact fun _ => ih
    · intro _
      apply Completes.orFail_bind _ (fun _ h => .project h)
      intro project hp
      exact .bind (hs project (getProject_mem hp)) (fun _ => .bind ih (fun _ => .pure _))

lemma internalSyncProject_completes (reqs : RunRequirements) (n : Nat) (c : List Id)
    (hp : project ∈ env.workspace.projects)
    (hfuel : unvisited (env.workspace.projects.map Project.id) c < n) :
    Completes env (internalSyncProject env reqs n c project) := by
  induction n generalizing c project with
  | zero => cases hfuel
  | succ n ih =>
    unfold internalSyncProject
    apply Completes.ite (fun _ => .pure none)
    intro hg
    have hn : project.id ∉ c := by
      intro hm
      simp [hm] at hg
    have hlt := unvisited_cons_lt (mem_map_of_mem hp) hn
    apply Completes.bind (checkAffected_completes _ _ (fun _ _ h => .affectProject h))
    intro affected
    apply Completes.ite (fun _ => .pure none)
    intro _
    apply Completes.bind syncWorkspace_completes
    intro s
    apply Completes.get_bind
    intro b
    cases b.getIndexFromNode (.syncProject project.id) with
    | some i => exact .pure _
    | none =>
      apply Completes.bind (insertNode_completes _)
      intro i
      apply Completes.bind (syncDependencies_completes _ i _ _)
      · intro es
        exact .bind (linkRequirements_completes _ _) (fun _ => .pure _)
      · intro depProject hd
        exact ih _ hd (by omega)

def toolchainIds (env : BuilderEnv A) (project : Project) : List Id :=
  env.toolchainsConfig.map Prod.fst ++ (env.projectToolchains project.id).map Prod.fst

lemma getWorkspaceSpec_mem (project : Project)
    (h : env.getWorkspaceSpec id = some spec) : spec.id ∈ toolchainIds env project := by
  unfold BuilderEnv.getWorkspaceSpec BuilderEnv.getPluginConfig at h
  rw [Option.map_map, Option.map_eq_some_iff] at h
  obtain ⟨e, hf, rfl⟩ := h
  have hi : e.1 = id := by simpa using find?_some hf
  have hm : e.1 ∈ env.toolchainsConfig.map Prod.fst := mem_map_of_mem (mem_of_find?_eq_some hf)
  rw [hi] at hm
  exact mem_append_left _ hm

lemma getProjectSpec_mem
    (h : env.getProjectSpec id project = some spec) : spec.id ∈ toolchainIds env project := by
  unfold BuilderEnv.getProjectSpec at h
  split at h
  · rename_i e c hf
    have hi : e = id := by simpa using find?_some hf
    have hm : e ∈ (env.projectToolchains project.id).map Prod.fst :=
      mem_map_of_mem (mem_of_find?_eq_some hf)
    split_ifs at h
    split at h
    · cases h
      rw [hi] at hm
      exact mem_append_right _ hm
    · exact getWorkspaceSpec_mem project h
  · exact getWorkspaceSpec_mem project h

lemma getSpec_mem
    (ho : owner = none ∨ owner = some project) (h : env.getSpec id owner = some spec) :
    spec.id ∈ toolchainIds env project := by
  rcases ho with rfl | rfl
  · exact getWorkspaceSpec_mem project h
  · exact getProjectSpec_mem h

lemma requireToolchains_completes {s : ToolchainSpec → BuildM A (Option Nat)}
    (hsu : ∀ id spec, env.getSpec id owner = some spec → Completes env (s spec))
    (spec : ToolchainSpec) (c ids : List Id) :
    Completes env (requireToolchains env s spec owner c ids) := by
  induction ids with
  | nil => exact .pure []
  | cons id ids ih =>
    unfold requireToolchains
    apply Completes.ite
    · exact fun _ => ih
    · intro _
      cases hs : env.getSpec id owner with
      | none => exact .throw (.requirement hs)
      | some r =>
        exact .bind (hsu id r hs) (fun _ => .bind ih (fun _ => .pure _))

lemma internalSetupToolchain_completes (ho : owner = none ∨ owner = some project) (n : Nat)
    (c : List Id) (hs : spec.id ∈ toolchainIds env project)
    (hfuel : unvisited (toolchainIds env project) c < n) :
    Completes env (internalSetupToolchain env owner n c spec) := by
  induction n generalizing c spec with
  | zero => cases hfuel
  | succ n ih =>
    unfold internalSetupToolchain
    apply Completes.ite (fun _ => .pure none)
    intro hg
    have hn : spec.id ∉ c := by
      intro hm
      simp [hm] at hg
    have hlt := unvisited_cons_lt hs hn
    apply Completes.orFail_bind _ (fun _ h => .load h)
    intro t hl
    apply Completes.orFail_bind _ (fun _ h => .requirements hl h)
    intro o _
    apply Completes.bind (requireToolchains_completes _ spec _ _)
    · intro es
      apply Completes.ite (fun _ => .pure none)
      intro _
      apply Completes.bind syncWorkspace_completes
      intro s
      apply Completes.bind (setupRequiredProto_completes spec)
      intro protoIndex
      apply Completes.bind (insertNodeIfMissing_completes _)
      intro i
      exact .bind (linkRequirements_completes _ _) (fun _ => .pure _)
    · intro id r hr
      exact ih _ (getSpec_mem ho hr) (by omega)

variable {n : Nat}

section

variable (ho : owner = none ∨ owner = some project) (hfuel : (toolchainIds env project).length < n)
  (hs : spec.id ∈ toolchainIds env project)

include ho hfuel hs

lemma setupToolchain_completes :
    Completes env (setupToolchain env n owner spec) :=
  internalSetupToolchain_completes ho n [] hs ((unvisited_le_length _ _).trans_lt hfuel)

lemma setupEnvironment_completes (root : WorkspaceRelativePath) :
    Completes env (setupEnvironment env n spec root owner) := by
  unfold setupEnvironment
  apply Completes.ite (fun _ => .pure none)
  intro _
  apply Completes.orFail_bind _ (fun _ h => .load h)
  intro t hl
  apply Completes.orFail_bind _ (fun _ h => .requirements hl h)
  intro o _
  apply Completes.bind (requireToolchains_completes (fun id r hr =>
    setupToolchain_completes ho hfuel (getSpec_mem ho hr)) spec _ _)
  intro es
  apply Completes.ite (fun _ => .pure none)
  intro _
  apply Completes.bind syncWorkspace_completes
  intro s
  apply Completes.bind (setupToolchain_completes ho hfuel hs)
  intro setupToolchainIndex
  apply Completes.get_bind
  intro b
  split
  · exact .pure _
  · apply Completes.bind (insertNode_completes _)
    intro i
    exact .bind (linkRequirements_completes _ _) (fun _ => .pure _)

end

section

variable (hfuel : (toolchainIds env project).length < n)
include hfuel

lemma installInRoot_completes (hs : spec.id ∈ toolchainIds env project) (t : ToolchainPlugin)
    (w : DependenciesWorkspace) (r : DependenciesWorkspaceRole) (s se : Option Nat) :
    Completes env (installInRoot env n spec (some project) t w r s se) := by
  unfold installInRoot
  have ho : (if r == .packageRoot then some project else none) = none ∨
      (if r == .packageRoot then some project else none) = some project := by
    split_ifs <;> simp
  apply Completes.bind (setupEnvironment_completes ho hfuel hs w.root)
  intro setupEnvIndex
  apply Completes.ite
  · intro _
    apply Completes.bind (insertNodeIfMissing_completes _)
    intro i
    exact .bind (linkRequirements_completes _ _) (fun _ => .pure _)
  · intro _
    cases setupEnvIndex with
    | some i => exact .bind (linkRequirements_completes _ _) (fun _ => .pure _)
    | none => exact .pure _

lemma installDependencies_completes (hs : spec.id ∈ toolchainIds env project) :
    Completes env (installDependencies env n spec (some project)) := by
  unfold installDependencies
  apply Completes.ite (fun _ => .pure none)
  intro _
  apply Completes.bind syncWorkspace_completes
  intro s
  apply Completes.bind (setupToolchain_completes (.inr rfl) hfuel hs)
  intro setupToolchainIndex
  apply Completes.orFail_bind _ (fun _ h => .load h)
  intro t hl
  apply Completes.ite (fun _ => .pure _)
  intro _
  apply Completes.orFail_bind _ (fun _ h => .root hl h)
  intro l _
  cases l with
  | none => exact .pure _
  | some w =>
    apply Completes.orFail_bind _ (fun _ h => .members h)
    intro r _
    cases r with
    | none => exact .pure _
    | some r => exact installInRoot_completes hfuel hs _ _ _ _ _

lemma installDependenciesByToolchains_completes (ids : List Id) :
    Completes env (installDependenciesByToolchains env n project ids) := by
  induction ids with
  | nil => exact .pure []
  | cons id ids ih =>
    unfold installDependenciesByToolchains
    cases hs : env.getProjectSpec id project with
    | none => exact ih
    | some spec =>
      apply Completes.bind (installDependencies_completes hfuel (getProjectSpec_mem hs))
      exact fun _ => .bind ih (fun _ => .pure _)

end

def setupBound (env : BuilderEnv A) : Nat :=
  env.workspace.projects.length +
    (env.workspace.projects.map (fun project => (toolchainIds env project).length)).sum

lemma initialEdges_completes (hp : project ∈ env.workspace.projects)
    (hfuel : setupBound env < n) (v : TaskVisit) :
    Completes env (initialEdges env n project v) := by
  have hids : (toolchainIds env project).length ≤
      (env.workspace.projects.map (fun project => (toolchainIds env project).length)).sum :=
    le_sum_of_mem (mem_map_of_mem hp)
  have hu := unvisited_le_length (env.workspace.projects.map Project.id) []
  rw [length_map] at hu
  unfold setupBound at hfuel
  unfold initialEdges
  apply Completes.bind (internalSyncProject_completes v.reqs n [] hp (by omega))
  intro syncProjectIndex
  apply Completes.bind (installDependenciesByToolchains_completes (by omega) _)
  intro installIndexes
  exact .ite (fun _ => .bind syncWorkspace_completes (fun _ => .pure _)) (fun _ => .pure _)

end

/-- The graph's dependents are the tasks that name a task. -/
def DependentsMatch (env : BuilderEnv A) : Prop :=
  ∀ task, Known env task → ∀ target, (∃ dependent ∈ env.workspace.taskDependents task.target,
      ∃ depTask ∈ resolved env dependent, depTask.target = target) ↔ Requires env target task.target

section

variable {env : BuilderEnv A} {v dep : TaskVisit} {ts : List Task}

def taskTargets (env : BuilderEnv A) : Finset Target :=
  (env.workspace.tasks.map Task.target).toFinset

lemma Known.mem_taskTargets {t : Task} (h : Known env t) : t.target ∈ taskTargets env :=
  mem_toFinset.mpr (mem_map_of_mem (getTask_eq_ok h).1)

noncomputable def visitHeight (env : BuilderEnv A) (visit : TaskVisit) : Nat :=
  if visit.state.viaDependency then height (Requires env) (taskTargets env) visit.task.target
  else (taskTargets env).card + 1 +
    height (Function.swap (Requires env)) (taskTargets env) visit.task.target

lemma visitHeight_le (env : BuilderEnv A) (v : TaskVisit) :
    visitHeight env v ≤ 2 * env.workspace.tasks.length + 1 := by
  have hc : (taskTargets env).card ≤ (env.workspace.tasks.map Task.target).length :=
    toFinset_card_le _
  rw [length_map] at hc
  have hdw := height_le_card (Requires env) (taskTargets env) v.task.target
  have hup := height_le_card (Function.swap (Requires env)) (taskTargets env) v.task.target
  unfold visitHeight
  split_ifs <;> omega

lemma visitHeight_dependency (ha : Acyclic (Requires env)) (hk : Known env v.task)
    (hd : dep ∈ dependencyVisits env v) : visitHeight env dep < visitHeight env v := by
  have hr := requires_of_dependencyVisits hk hd
  have hlt := ha.height_lt hr (known_of_dependency hd).mem_taskTargets
  have hcr := height_le_card (Requires env) (taskTargets env) dep.task.target
  have hv : dep.state.viaDependency := by
    obtain ⟨c, -, d, -, rfl⟩ := mem_dependencyVisits hd
    rfl
  unfold visitHeight
  rw [if_pos hv]
  split_ifs <;> omega

lemma visitHeight_dependent (ha : Acyclic (Requires env)) (hm : DependentsMatch env)
    (hk : Known env v.task) (hs : v.shouldRunDependents)
    (hd : dep ∈ dependentVisits env v) : visitHeight env dep < visitHeight env v := by
  have ht := (known_of_dependent hd).mem_taskTargets
  have hv : v.state.viaDependency = false := by
    unfold TaskVisit.shouldRunDependents at hs
    simpa using (Bool.and_eq_true_iff.mp hs).1
  obtain ⟨dependent, hdp, d, hdt, rfl⟩ := mem_dependentVisits hd
  have hr : Requires env d.target v.task.target := (hm v.task hk _).mp ⟨dependent, hdp, d, hdt, rfl⟩
  have hl := ha.swap.height_lt hr ht
  unfold visitHeight
  simp only [hv, TaskVisit.dependent, Bool.false_eq_true, if_false] at hl ⊢
  omega

variable {run : TaskVisit → BuildM A (Option Nat)}

lemma resolved_eq {t : Target}
    (h : env.workspace.resolveTasksFromTarget env.allQuery t true = .ok ts) :
    resolved env t = ts := by
  unfold resolved
  rw [h]

lemma linkSerial_completes (p : Bool) (i : Nat) (ps : Option Nat) :
    Completes env (linkSerial p i ps) := by
  unfold linkSerial
  cases ps with
  | none => exact .pure ()
  | some ps => exact .ite (fun _ => .pure ()) (fun _ => Triple.modify (fun _ _ => trivial))

lemma runDependencyTasks_completes {c : TaskDependencyConfig}
    (hr : ∀ d ∈ ts, Completes env (run (v.dependency c d))) (ps : Option Nat) :
    Completes env (runDependencyTasks run v c ts ps) := by
  induction ts generalizing ps with
  | nil => exact .pure _
  | cons d ts ih =>
    have hrs := ih (fun o ho => hr o (mem_cons_of_mem _ ho))
    unfold runDependencyTasks
    apply Completes.bind (hr d mem_cons_self)
    intro r
    cases r with
    | none => exact hrs ps
    | some i =>
      apply Completes.bind (linkSerial_completes _ i ps)
      exact fun _ => .bind (hrs (some i)) (fun _ => .pure _)

lemma runTaskDependencies_completes {de : List TaskDependencyConfig}
    (hrn : ∀ c ∈ de, ∀ d ∈ resolved env c.target, Completes env (run (v.dependency c d)))
    (ps : Option Nat) :
    Completes env (runTaskDependencies env run v de ps) := by
  induction de generalizing ps with
  | nil => exact .pure []
  | cons c de ih =>
    have hrs := ih (fun o ho => hrn o (mem_cons_of_mem _ ho))
    unfold runTaskDependencies
    apply Completes.orFail_bind _ (fun _ h => .target h)
    intro ts ht
    have hr := hrn c mem_cons_self
    rw [resolved_eq ht] at hr
    apply Completes.bind (runDependencyTasks_completes hr ps)
    rintro ⟨indexes, ps⟩
    exact .bind (hrs ps) (fun _ => .pure _)

lemma runDependentTasks_completes (hr : ∀ d ∈ ts, Completes env (run (v.dependent d))) :
    Completes env (runDependentTasks run v ts) := by
  induction ts with
  | nil => exact .pure ()
  | cons d ts ih =>
    apply Completes.bind (hr d mem_cons_self)
    exact fun _ => ih (fun o ho => hr o (mem_cons_of_mem _ ho))

lemma runTaskDependents_completes {ta : List Target} (hrn : ∀ t ∈ ta, ∀ d ∈ resolved env t,
      Completes env (run (v.dependent d))) : Completes env (runTaskDependents env run v ta) := by
  induction ta with
  | nil => exact .pure ()
  | cons t ta ih =>
    unfold runTaskDependents
    apply Completes.orFail_bind _ (fun _ h => .target h)
    intro ts ht
    have hr := hrn t mem_cons_self
    rw [resolved_eq ht] at hr
    apply Completes.bind (runDependentTasks_completes hr)
    exact fun _ => ih (fun o ho => hrn o (mem_cons_of_mem _ ho))

structure ChildrenComplete (env : BuilderEnv A) (run : TaskVisit → BuildM A (Option Nat))
    (visit : TaskVisit) : Prop where
  dependency : ∀ dep ∈ dependencyVisits env visit, Completes env (run dep)
  dependent : visit.shouldRunDependents = true → ∀ dep ∈ dependentVisits env visit,
    Completes env (run dep)

section

variable (h : ChildrenComplete env run v)
include h

lemma ChildrenComplete.dependencies :
    Completes env (runTaskDependencies env run v v.task.deps none) :=
  runTaskDependencies_completes (fun c hc _ hd =>
    h.dependency _ (mem_flatMap.mpr ⟨c, hc, mem_map_of_mem hd⟩)) none

lemma ChildrenComplete.expandDependents {expand : Bool} (hex : expand → v.shouldRunDependents) :
    Completes env (expandDependents env run v expand) := by
  unfold ActionGraphBuilder.expandDependents
  apply Completes.ite _ (fun _ => .pure ())
  intro hs
  exact runTaskDependents_completes (fun t ht d hd =>
    h.dependent (hex hs) _ (mem_flatMap.mpr ⟨t, ht, mem_map_of_mem hd⟩))

lemma ChildrenComplete.revisitNode (i : Nat) (had : Bool) {ha : Bool}
    (hh : ha → v.shouldRunDependents) : Completes env (revisitNode env run v i had ha) := by
  unfold ActionGraphBuilder.revisitNode expandIgnoredDependencies
  apply Completes.bind (Completes.ite (fun _ => h.dependencies) (fun _ => .pure []))
  intro es
  apply Completes.bind (linkRequirements_completes i es)
  exact fun _ => .bind (h.expandDependents hh) (fun _ => .pure _)

lemma ChildrenComplete.visitNewNode {n : Nat} {project : Project}
    (hp : project ∈ env.workspace.projects) (hfuel : setupBound env < n) :
    Completes env (visitNewNode env n run project v) := by
  unfold ActionGraphBuilder.visitNewNode
  apply Completes.bind (initialEdges_completes hp hfuel v)
  intro setupEdges
  apply Completes.bind (insertNode_completes _)
  intro i
  have hd : Completes env (expandDependencies env run v) := by
    apply Completes.ite (fun _ => .pure [])
    intro _
    exact .ite (fun _ => h.dependencies) (fun _ => .modify_bind (.pure []))
  apply Completes.bind hd
  intro taskEdges
  apply Completes.bind (linkRequirements_completes _ _)
  intro _
  have hdp : Completes env (expandOrIgnoreDependents env run v) := by
    apply Completes.ite
    · intro hs
      exact h.expandDependents (fun _ => hs)
    · exact fun _ => Triple.modify (fun _ _ => trivial)
  exact .bind hdp (fun _ => .pure _)

lemma ChildrenComplete.visitNode {n : Nat}
    {project : Project} (hp : project ∈ env.workspace.projects)
    (hfuel : setupBound env < n) : Completes env (visitNode env n run project v) := by
  unfold ActionGraphBuilder.visitNode
  apply Completes.bind
  · exact .get_bind (fun _ => .ite (fun _ => .modify_bind (.pure _)) (fun _ => .pure _))
  intro hadp
  apply Triple.bind (M := fun had _ => had = true → v.shouldRunDependents = true)
  · unfold takeIgnoredDependents
    apply Triple.get_bind_keep
    intro b _
    apply Triple.ite
    · intro hs
      exact Triple.modify_bind (M := fun _ => True) (fun _ _ => trivial)
        (Triple.pure (fun _ _ _ => hs))
    · exact fun _ => Triple.pure (fun _ _ hf => by cases hf)
  intro ha
  apply Triple.get_bind
  intro b hh
  refine Triple.conseq (?_ : Completes env _) (fun _ _ => trivial) (fun _ _ h => h) (fun _ _ h => h)
  split
  · exact h.revisitNode _ _ hh
  · exact h.visitNewNode hp hfuel

end

lemma external_getVisitProject {e : WorkspaceError}
    (h : getVisitProject env v = .error e) : External env (.workspace e) := by
  unfold getVisitProject at h
  split at h
  · exact .project h
  · rename_i hs
    cases h
    exact .scope hs

theorem internalRunTask_completes (ha : Acyclic (Requires env)) (hm : DependentsMatch env) (n : Nat)
    (hk : Known env v.task) (hfuel : setupBound env + visitHeight env v + 1 < n) :
    Completes env (internalRunTask env n v) := by
  induction n generalizing v with
  | zero => cases hfuel
  | succ n ih =>
    have hc : ChildrenComplete env (internalRunTask env n) v := by
      constructor
      · intro dep hd
        have hl := visitHeight_dependency ha hk hd
        exact ih (known_of_dependency hd) (by omega)
      · intro hs dep hd
        have hl := visitHeight_dependent ha hm hk hs hd
        exact ih (known_of_dependent hd) (by omega)
    unfold internalRunTask
    apply Completes.orFail_bind _ (fun _ h => external_getVisitProject h)
    intro project hp
    apply Completes.bind (checkAffected_completes _ _ (fun _ _ h => .affectTask h))
    intro affected
    apply Completes.ite (fun _ => .pure none)
    intro _
    apply Completes.get_bind
    intro b
    apply Completes.ite (fun _ => .pure none)
    intro _
    apply Completes.ite
    · intro _
      apply Completes.modify_bind
      exact .bind (hc.expandDependents id) (fun _ => .pure none)
    · intro _
      refine hc.visitNode ?_ (by omega)
      unfold getVisitProject at hp
      split at hp
      · exact getProject_mem hp
      · cases hp

/-- Fuel that no call can use up. -/
def callBound (env : BuilderEnv A) : Nat := setupBound env + 2 * env.workspace.tasks.length + 3

lemma runTask_completes (ha : Acyclic (Requires env)) (hm : DependentsMatch env)
    {n : Nat} (hfuel : callBound env ≤ n) {t : Task} (hk : Known env t)
    (reqs : RunRequirements) : Completes env (runTask env n t reqs) := by
  have hhgh := visitHeight_le env { task := t, reqs := reqs }
  unfold callBound at hfuel
  unfold runTask
  apply Completes.bind (internalRunTask_completes ha hm n hk (by omega))
  intro r
  cases r with
  | none => exact .pure none
  | some i => exact .modify_bind (.pure _)

end

end Moon.Proofs.Builder
