import Moon.Proofs.TaskDepsBuilder

/-!
# The order of declared dependencies

Dependencies on an id or a tag add projects to the dependencies of the project, and those on
`^` look into all that is there when their turn comes.
-/

namespace Moon.Proofs

open Moon.Lib List Target TaskDepsBuilder

/-- No dependency on `^` gets anything from the projects that others in the list add, or needs them
in order to find something. -/
def OrderFree (catalog : Catalog) (rootProjectId : Option Id) (project : Project) (task : Task) :
    Prop :=
  ∀ dep ∈ task.deps, isParentScope dep.target.project = true → (skipsIfMissing dep = true ∨
      (Finds catalog project (knownDeps project.dependencies) dep).Nonempty) ∧
    ∀ target ∈ ResolvesTo catalog project task (knownDeps project.dependencies ∪
        Added catalog rootProjectId project task (knownDeps project.dependencies) task.deps) dep,
      mayDependOn task (catalog.options target) = true ∧
      ∃ other ∈ task.deps,
        target ∈ ResolvesTo catalog project task (knownDeps project.dependencies) other

section

variable {q : TasksQuerent} {c : Catalog} {root : Option Id}
  {p : Project} {task : Task} {taskId : String} {s : DepsState}
  {deps deps' : List TaskDependencyConfig}

lemma loopAt_start : LoopAt p (knownDeps p.dependencies) ∅ { project := p } :=
  ⟨rfl, rfl, rfl, by simp⟩

variable {known : Set (Id × DependencyScope)}

lemma added_parents (h : ∀ dep ∈ deps, isParentScope dep.target.project) :
    Added c root p task known deps = ∅ := by
  have hn : {t | ∃ dep ∈ deps, t ∈ LinkedTargets c p task dep} = ∅ := by
    refine Set.eq_empty_iff_forall_notMem.mpr ?_
    rintro t ⟨dep, hd, -, hl⟩
    have hp := h dep hd
    rw [not_parent_of_linksProjects hl] at hp
    cases hp
  rw [Added, hn, newEntries_empty]

lemma added_others : Added c root p task known
        (deps.filter (fun dep => !isParentScope dep.target.project)) =
      Added c root p task known deps := by
  have hsm : {t | ∃ dep ∈ deps.filter (fun dep => !isParentScope dep.target.project),
        t ∈ LinkedTargets c p task dep} =
      {t | ∃ dep ∈ deps, t ∈ LinkedTargets c p task dep} := by
    ext t
    constructor
    · rintro ⟨dep, hd, hl⟩
      exact ⟨dep, (mem_filter.mp hd).1, hl⟩
    · rintro ⟨dep, hd, hl⟩
      have hs := not_parent_of_linksProjects hl.2
      exact ⟨dep, mem_filter.mpr ⟨hd, by simp [hs]⟩, hl⟩
  rw [Added, hsm, Added]

/-- If the order plays no part, everything is resolved from the dependencies that the project
has to begin with. -/
lemma OrderFree.run (han : AnswersFrom q c) (ht : task.target = new p.id taskId)
    (hf : OrderFree c root p task)
    (hr : task.deps.foldlM (buildDep q root task) { project := p } = .ok s)
    (hpr : deps'.Perm task.deps) :
    ∃ s', deps'.foldlM (buildDep q root task) { project := p } = .ok s' ∧
      ∀ t, (∃ dep ∈ s'.deps, dep.target = t) ↔ ∃ dep ∈ task.deps,
        t ∈ ResolvesTo c p task (knownDeps p.dependencies) dep := by
  obtain ⟨_, -, -, hdc, -⟩ := loopAt_start.run han ht hr
  have ha : Added c root p task (knownDeps p.dependencies) deps' =
      Added c root p task (knownDeps p.dependencies) task.deps := by
    simp only [Added, hpr.mem_iff]
  have ho : ∀ dep ∈ deps', ∀ b, knownDeps p.dependencies ⊆ b →
      b ⊆ knownDeps p.dependencies ∪
        Added c root p task (knownDeps p.dependencies) deps' →
      DepOk c p task b dep := by
    intro dep hd b hfr hto
    have hm := hpr.mem_iff.mp hd
    obtain ⟨stand, -, -, ho, -⟩ := hdc dep hm
    by_cases hp : isParentScope dep.target.project
    · obtain ⟨hfd, hal⟩ := hf dep hm hp
      refine ⟨ho.supported, hfd.imp_right (fun h => h.mono (finds_mono hfr)), ?_⟩
      intro t htg
      exact (hal t (resolvesTo_mono (ha ▸ hto) htg)).1
    · exact ho.of_not_parent (Bool.eq_false_iff.mpr hp) b
  obtain ⟨s', hs'⟩ := exists_run han ht loopAt_start ho
  obtain ⟨entries, hl, -, hb, hw⟩ := loopAt_start.run han ht hs'
  refine ⟨s', hs', fun t => ?_⟩
  constructor
  · rintro ⟨e, hen, rfl⟩
    obtain hn | ⟨dep, hd, t, hm, rfl⟩ := hw e ((hl.entries _).mpr hen)
    · exact absurd hn (Set.notMem_empty e)
    have hdc := hpr.mem_iff.mp hd
    by_cases hp : isParentScope dep.target.project
    · exact ((hf dep hdc hp).2 t (ha ▸ hm)).2
    · refine ⟨dep, hdc, ?_⟩
      rwa [resolvesTo_eq_of_not_parent (Bool.eq_false_iff.mpr hp) (knownDeps p.dependencies)] at hm
  · rintro ⟨dep, hd, hm⟩
    obtain ⟨b, hfr, -, -, hc⟩ := hb dep (hpr.mem_iff.mpr hd)
    have hen := hc t (resolvesTo_mono hfr hm)
    exact ⟨_, (hl.entries _).mp hen, rfl⟩

variable (s) in
/-- The loop stands before the parents at what the project has to begin with, or behind the others
at all that is added. -/
lemma orderFree_of_runs (ha : AnswersFrom q c) (ht : task.target = new p.id taskId)
    (hr : ∀ deps' : List TaskDependencyConfig, deps'.Perm task.deps → ∃ s',
      deps'.foldlM (buildDep q root task) { project := p } = .ok s' ∧
      ∀ t, (∃ dep ∈ s'.deps, dep.target = t) ↔ ∃ dep ∈ s.deps, dep.target = t) :
    OrderFree c root p task := by
  let ps := task.deps.filter (fun dep => isParentScope dep.target.project)
  let os := task.deps.filter (fun dep => !isParentScope dep.target.project)
  have hp : (ps ++ os).Perm task.deps :=
    filter_append_perm (fun dep => isParentScope dep.target.project) task.deps
  obtain ⟨f, hf, hsm⟩ := hr _ hp
  obtain ⟨last, hls, hs'⟩ := hr _ (perm_append_comm.trans hp)
  rw [foldlM_append] at hf hls
  obtain ⟨b, hprn, hrs⟩ := bind_eq_ok hf
  obtain ⟨between', hos, hr'⟩ := bind_eq_ok hls
  have hpa : ∀ dep ∈ ps, isParentScope dep.target.project :=
    fun dep hd => (mem_filter.mp hd).2
  have ho : ∀ dep ∈ os, isParentScope dep.target.project = false := fun dep hd => by
    simpa using (mem_filter.mp hd).2
  -- the parents first: everything is found in what the project has to begin with
  obtain ⟨_, hlp, -, hst, hw⟩ := loopAt_start.run ha ht hprn
  rw [added_parents hpa, Set.union_empty] at hlp hst hw
  obtain ⟨_, hlpF, -, -, hwth⟩ := hlp.run ha ht hrs
  have hbs : ∀ t, (∃ dep ∈ f.deps, dep.target = t) → ∃ dep ∈ task.deps,
      t ∈ ResolvesTo c p task (knownDeps p.dependencies) dep := by
    rintro t ⟨e, hen, rfl⟩
    obtain hb | ⟨dep, hd, t, hm, rfl⟩ := hwth e ((hlpF.entries _).mpr hen)
    · obtain hn | ⟨dep, hd, t, hm, rfl⟩ := hw e hb
      · exact absurd hn (Set.notMem_empty e)
      · exact ⟨dep, (mem_filter.mp hd).1, hm⟩
    · rw [resolvesTo_eq_of_not_parent (ho dep hd) (knownDeps p.dependencies)] at hm
      exact ⟨dep, (mem_filter.mp hd).1, hm⟩
  -- the others first: the parents look into all that is added
  obtain ⟨_, hl', -, -, -⟩ := loopAt_start.run ha ht hos
  obtain ⟨_, hlpL, -, hs, -⟩ := hl'.run ha ht hr'
  rw [added_others] at hs
  intro dep hd hsc
  have hm : dep ∈ ps := mem_filter.mpr ⟨hd, hsc⟩
  refine ⟨?_, fun t htg => ?_⟩
  · obtain ⟨stand, hfr, hto, hok, -⟩ := hst dep hm
    rw [hto.antisymm hfr] at hok
    exact hok.found
  · obtain ⟨stand, hfr, -, hok, hc⟩ := hs dep hm
    have hl := resolvesTo_mono hfr htg
    refine ⟨hok.allowed t hl, hbs t ?_⟩
    rw [hsm, ← hs']
    exact ⟨_, (hlpL.entries _).mp (hc t hl), rfl⟩

lemma build_eq (q : TasksQuerent) (root : Option Id) (p : Project)
    (task : Task) (deps : List TaskDependencyConfig) :
    build q root p { task with deps := deps } =
      (deps.foldlM (buildDep q root task) { project := p }).map
        (fun s => (s.project, { task with deps := s.deps })) := by
  change (deps.foldlM (buildDep q root task) { project := p } >>= _) = _
  cases deps.foldlM (buildDep q root task) { project := p } <;> rfl

lemma build_eq_ok {r : Project × Task} (h : build q root p { task with deps := deps } = .ok r) :
    ∃ s, deps.foldlM (buildDep q root task) { project := p } = .ok s ∧ r.2.deps = s.deps := by
  rw [build_eq] at h
  cases hr : deps.foldlM (buildDep q root task) { project := p } with
  | error error =>
    rw [hr] at h
    cases h
  | ok s =>
    rw [hr] at h
    cases h
    exact ⟨s, rfl, rfl⟩

end

/-- If the declared list can be resolved, then every permutation of it can be, to the same
targets, if and only if no dependency on `^` gets anything from the projects that the others
add. -/
theorem resolved_targets_permute_iff {querent : TasksQuerent} {catalog : Catalog}
    (hanswers : AnswersFrom querent catalog) (rootProjectId : Option Id) (project : Project)
    (task : Task) {taskId : String} (htask : task.target = Target.new project.id taskId)
    {result : Project × Task}
    (hresolved : TaskDepsBuilder.build querent rootProjectId project task = .ok result) :
    (∀ deps' : List TaskDependencyConfig, deps'.Perm task.deps → ∃ result',
      TaskDepsBuilder.build querent rootProjectId project { task with deps := deps' } =
        .ok result' ∧
      ∀ target, (∃ dep ∈ result'.2.deps, dep.target = target) ↔
        ∃ dep ∈ result.2.deps, dep.target = target) ↔
    OrderFree catalog rootProjectId project task := by
  obtain ⟨s, hst, hd⟩ := build_eq_ok hresolved
  rw [hd]
  constructor
  · intro hprm
    refine orderFree_of_runs s hanswers htask (fun deps' hp => ?_)
    obtain ⟨result', hr', hs⟩ := hprm deps' hp
    obtain ⟨s', hs', hd'⟩ := build_eq_ok hr'
    exact ⟨s', hs', hd' ▸ hs⟩
  · intro hf deps' hp
    obtain ⟨s', hs', ht'⟩ := hf.run hanswers htask hst hp
    obtain ⟨same, hs, ht⟩ := hf.run hanswers htask hst (List.Perm.refl _)
    rw [hst] at hs
    cases hs
    refine ⟨(s'.project, { task with deps := s'.deps }), ?_, fun target => ?_⟩
    · rw [build_eq, hs']
      rfl
    · rw [ht, ht']

def coreQuerent : TasksQuerent where
  queryProjectsByTag tag := .ok (if tag = "lib" then ["core"] else [])
  queryTasks ids scope :=
    .ok (if "core" ∈ ids ∧ (scope = .id "compile" ∨ scope = .id "build") then
      [(⟨.id "core", scope⟩, {})] else [])
  queryTaskHasOutputs _ := false

def coreCatalog : Catalog where
  tagged tag := {id | tag = "lib" ∧ id = "core"}
  tasks id scope := {target | id = "core" ∧ (scope = .id "compile" ∨ scope = .id "build") ∧
    target = ⟨.id "core", scope⟩}
  options _ := {}

lemma answersFrom_core : AnswersFrom coreQuerent coreCatalog where
  tags tag := by
    refine ⟨_, rfl, fun id => ?_⟩
    by_cases ht : tag = "lib" <;> simp [coreCatalog, ht]
  tasks ids scope := by
    refine ⟨_, rfl, fun r => ?_⟩
    obtain ⟨t, options⟩ := r
    by_cases hf : "core" ∈ ids ∧ (scope = .id "compile" ∨ scope = .id "build")
    · simp [coreCatalog, hf]
    · rw [if_neg hf]
      simp only [coreCatalog, not_mem_nil, false_iff, not_and]
      rintro ⟨id, hi, rfl, hs, -⟩
      exact absurd ⟨hi, hs⟩ hf
  qualified id scope t htg := by
    obtain ⟨-, rfl | rfl, rfl⟩ := htg
    · exact ⟨"core", "compile", rfl⟩
    · exact ⟨"core", "build", rfl⟩

def publishDeps : List TaskDependencyConfig :=
  [{ target := ⟨.tag "lib", .id "compile"⟩ }, { target := ⟨.deps, .id "build"⟩ }]

def publishTask : Task :=
  { command := ⟨none, "make"⟩, deps := publishDeps, target := Target.new "app" "publish" }

def coreDependent : Project := { id := "app", dependencies := [{ id := "core" }] }

lemma orderFree_coreDependent : OrderFree coreCatalog none coreDependent publishTask := by
  have ha : Added coreCatalog none coreDependent publishTask
      (knownDeps coreDependent.dependencies) publishDeps = ∅ := by
    refine Set.eq_empty_iff_forall_notMem.mpr ?_
    rintro ⟨id, scope⟩ ⟨⟨target, ⟨dep, -, ⟨⟨⟨o, -, -, -, rfl⟩, -⟩, -⟩⟩, hi⟩, -, -, hf, -⟩
    cases hi
    exact hf .production ⟨{ id := "core" }, mem_cons_self, rfl⟩
  intro dep hd hp
  obtain rfl | rfl : dep = { target := ⟨.tag "lib", .id "compile"⟩ } ∨
      dep = { target := ⟨.deps, .id "build"⟩ } := by
    simpa [publishTask, publishDeps] using hd
  · cases hp
  · refine ⟨.inl rfl, fun target ht => ⟨rfl, _, hd, ?_⟩⟩
    change target ∈ ResolvesTo _ _ _ (_ ∪ Added coreCatalog none coreDependent publishTask
      (knownDeps coreDependent.dependencies) publishDeps) _ at ht
    rwa [ha, Set.union_empty] at ht

theorem publish_permutes : ∃ result', TaskDepsBuilder.build coreQuerent none coreDependent
        { publishTask with deps := publishDeps.reverse } = .ok result' ∧
      ∀ target, (∃ dep ∈ result'.2.deps, dep.target = target) ↔
        target = Target.new "core" "compile" ∨ target = Target.new "core" "build" := by
  have hr : build coreQuerent none coreDependent publishTask =
      .ok (coreDependent, { publishTask with deps :=
        [{ target := new "core" "compile", cacheStrategy := some .ignored },
          { target := new "core" "build", cacheStrategy := some .ignored }] }) := by
    rfl
  obtain ⟨result', hr', hs⟩ := (resolved_targets_permute_iff answersFrom_core none
    coreDependent publishTask rfl hr).mpr orderFree_coreDependent _ (reverse_perm publishDeps)
  refine ⟨result', hr', fun target => ?_⟩
  rw [hs]
  simp [eq_comm]

/-- For a project without dependencies, what `^:build` finds depends on whether the tag comes
first. -/
theorem publish_order_decides :
    (TaskDepsBuilder.build coreQuerent none { id := "app" } publishTask).map
        (fun r => r.2.deps.map (fun dep => dep.target)) =
      .ok [Target.new "core" "compile", Target.new "core" "build"] ∧
    (TaskDepsBuilder.build coreQuerent none { id := "app" }
        { publishTask with deps := publishDeps.reverse }).map
        (fun r => r.2.deps.map (fun dep => dep.target)) =
      .ok [Target.new "core" "compile"] := by
  decide

end Moon.Proofs
