import Moon.Proofs.GraphLoader

/-! # Loading tasks -/

namespace Moon.Proofs

open Moon.Lib Relation TaskConfigs

/-- The same tasks, listed and declared in another order. -/
structure ReorderedTasks (configs configs' : TaskConfigs) : Prop where
  targets : configs'.targets.Perm configs.targets
  dependencies : ∀ target, (configs'.dependencies target).Perm (configs.dependencies target)

/-- A task of the workspace names the other one in its `deps`. -/
def TaskRequires (configs : TaskConfigs) (target other : Target) : Prop :=
  target ∈ configs.targets ∧ ∃ dep ∈ configs.dependencies target, dep.target = other

def taskEdge (target : Target) (dep : TaskDependencyConfig) : TaskEdge :=
  ⟨target, dep.target, TaskConfigs.dependencyType dep⟩

/-- An edge that the configs declare. -/
def DeclaredTaskEdge (configs : TaskConfigs) (edge : TaskEdge) : Prop :=
  edge.source ∈ configs.targets ∧
    ∃ dep ∈ configs.dependencies edge.source, edge = taskEdge edge.source dep

section

variable {cs : TaskConfigs}

lemma not_reaches_of_acyclic {r : Target → Target → Prop} (hacyclic : Acyclic r)
    {es : List TaskEdge} (hes : ∀ e ∈ es, r e.source e.target)
    {target o : Target} (hr : r target o) :
    reaches (es.map (fun e => (e.source, e.target))) o target = false := by
  rw [← Bool.not_eq_true, reaches_iff]
  intro hp
  have hm : ∀ a b, EdgeRel (es.map (fun e => (e.source, e.target))) a b →
      r a b := by
    intro a b ha
    obtain ⟨e, hed, heq⟩ := List.mem_map.mp ha
    cases heq
    exact hes e hed
  exact hacyclic target (TransGen.head' hr (ReflTransGen.mono hm _ _ hp))

lemma DeclaredTaskEdge.requires {e : TaskEdge} (h : DeclaredTaskEdge cs e) :
    TaskRequires cs e.source e.target := by
  obtain ⟨hs, dep, hd, hed⟩ := h
  exact ⟨hs, dep, hd, by rw [hed]; rfl⟩

section

variable (hacyclic : Acyclic (TaskRequires cs))
  (hknown : ∀ target ∈ cs.targets, ∀ dep ∈ cs.dependencies target, dep.target ∈ cs.targets)
include hacyclic hknown

lemma linkSpec_tasks : LinkSpec cs.spec (fun es => ∀ e ∈ es, DeclaredTaskEdge cs e)
      (fun es target dep => taskEdge target dep ∈ es) where
  configured target ht dep hd := by
    have hm := hknown target (of_decide_eq_true ht) dep hd
    exact decide_eq_true hm
  named dep c _ h := of_decide_eq_true h
  back target ht dep hd nodes es hp := by
    have hr : TaskRequires cs target dep.target := ⟨of_decide_eq_true ht, dep, hd, rfl⟩
    have hb : ReflTransGen (TaskRequires cs) dep.target target :=
      ReflTransGen.mono (fun _ _ h => by simpa [Loads, TaskRequires, spec] using h)
        _ _ hp
    exact absurd (TransGen.head' hr hb) (hacyclic target)
  link target ht dep hd es hes := by
    have hr : TaskRequires cs target dep.target := ⟨of_decide_eq_true ht, dep, hd, rfl⟩
    have hn := not_reaches_of_acyclic hacyclic (fun e hed => (hes e hed).requires) hr
    refine ⟨es ++ [taskEdge target dep], ?_, ?_, by simp, fun _ _ h => by simp [h]⟩
    · simp only [spec, hn, Bool.false_eq_true, if_false]
      rfl
    · refine List.forall_mem_append.mpr ⟨hes, ?_⟩
      rw [List.forall_mem_singleton]
      exact ⟨of_decide_eq_true ht, dep, hd, rfl⟩
  unnamed target _ dep _ _ := Or.inl (fun c h => decide_eq_true h)

lemma loadTasks_exact :
    ∃ l, cs.loadTasks = .ok l ∧ ∀ e, e ∈ l.links ↔ DeclaredTaskEdge cs e := by
  have hsp := linkSpec_tasks hacyclic hknown
  have hi : ∀ target, cs.spec.configured target → target ∈ cs.targets :=
    fun target h => of_decide_eq_true h
  have hst : RestOk cs.spec (fun es => ∀ e ∈ es, DeclaredTaskEdge cs e)
      (fun es target dep => taskEdge target dep ∈ es) { links := [] } :=
    { inv := by simp
      known := by simp
      loaded := by simp
      settled := by simp
      cycle := by simp
      all := by simp }
  obtain ⟨l, hl, hr, -, hal⟩ := hst.foldlM cs.loadTask
    (fun l hl target (ht : target ∈ cs.targets) => by
      obtain ⟨after, haf, ha⟩ := hl.load (loadNode_spec hsp hi _) (decide_eq_true ht)
      refine ⟨after, ?_, ha⟩
      unfold loadTask
      rw [haf]
      rfl)
  refine ⟨l, hl, fun e => ⟨hr.inv e, ?_⟩⟩
  rintro ⟨hs, dep, hd, hed⟩
  rw [hed]
  exact hr.settled e.source (hr.all _ (hal _ hs)) dep hd

end

end

/-- If no task requires itself, then in every order of the tasks and of the dependencies of each
task, all tasks are loaded, and the edges of the graph are the dependencies. -/
theorem acyclic_tasks_load_exactly (configs : TaskConfigs)
    (hacyclic : Acyclic (TaskRequires configs))
    (hknown : ∀ target ∈ configs.targets, ∀ dep ∈ configs.dependencies target,
      dep.target ∈ configs.targets)
    (configs' : TaskConfigs) (hreordered : ReorderedTasks configs configs') :
    ∃ loading, configs'.loadTasks = .ok loading ∧
      ∀ edge, edge ∈ loading.links ↔ DeclaredTaskEdge configs edge := by
  have ht : ∀ target, target ∈ configs'.targets ↔ target ∈ configs.targets :=
    fun target => hreordered.targets.mem_iff
  have hd : ∀ target dep, dep ∈ configs'.dependencies target ↔
      dep ∈ configs.dependencies target :=
    fun target dep => (hreordered.dependencies target).mem_iff
  have hr : TaskRequires configs' = TaskRequires configs := by
    funext target o
    simp only [TaskRequires, ht, hd]
  obtain ⟨loading, hl, hes⟩ := loadTasks_exact (hr ▸ hacyclic) (fun target htg dep hde => (ht _).mpr
      (hknown target ((ht _).mp htg) dep ((hd _ _).mp hde)))
  refine ⟨loading, hl, fun edge => ?_⟩
  rw [hes]
  simp only [DeclaredTaskEdge, ht, hd]

def packTarget : Target := Target.new "app" "pack"
def signTarget : Target := Target.new "app" "sign"
def stampTarget : Target := Target.new "app" "stamp"

def packConfigs : TaskConfigs :=
  { targets := [packTarget, signTarget, stampTarget]
    dependencies := fun target =>
      if target = packTarget then [{ target := signTarget }, { target := stampTarget }] else [] }

theorem pack_loads_in_reverse :
    ∃ loading, ({ packConfigs with targets := packConfigs.targets.reverse } :
        TaskConfigs).loadTasks = .ok loading ∧
      ∀ e, e ∈ loading.links ↔ DeclaredTaskEdge packConfigs e := by
  apply acyclic_tasks_load_exactly packConfigs
  · have hr : ∀ target ∈ packConfigs.targets, ∀ dep ∈ packConfigs.dependencies target,
        (if dep.target = packTarget then 1 else 0) < if target = packTarget then 1 else 0 := by
      decide
    apply acyclic_of_rank (fun target => if target = packTarget then 1 else 0)
    rintro target o ⟨ht, dep, hd, rfl⟩
    exact hr target ht dep hd
  · decide
  · exact ⟨List.reverse_perm _, fun _ => List.Perm.refl _⟩

def signConfigs (packDeps : List TaskDependencyConfig) : TaskConfigs :=
  { targets := [packTarget, signTarget, stampTarget]
    dependencies := fun target =>
      if target = packTarget then packDeps
      else if target = signTarget then [{ target := packTarget }]
      else [] }

/-- Whether the tasks are loaded depends on which dependency of `app:pack` comes first. -/
theorem sign_order_decides :
    (∃ loading, (signConfigs [{ target := signTarget }, { target := stampTarget }]).loadTasks =
      .ok loading) ∧
    (signConfigs [{ target := stampTarget }, { target := signTarget }]).loadTasks =
      .error (.wouldCycle packTarget signTarget) := by
  exact ⟨⟨_, rfl⟩, rfl⟩

end Moon.Proofs
