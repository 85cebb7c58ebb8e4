import Moon.Lib.Except
import Moon.TaskDepsBuilder

/-! # What declared dependencies resolve to -/

namespace Moon.Proofs

open Moon.Lib List Target

/-- The projects and tasks that queries are about. -/
structure Catalog where
  tagged : String → Set Id
  tasks : Id → TargetTaskScope → Set Target
  options : Target → TaskOptions

/-- Queries are answered from the catalog. -/
structure AnswersFrom (querent : TasksQuerent) (catalog : Catalog) : Prop where
  tags : ∀ tag, ∃ ids, querent.queryProjectsByTag tag = .ok ids ∧
    ∀ id, id ∈ ids ↔ id ∈ catalog.tagged tag
  tasks : ∀ ids scope, ∃ results, querent.queryTasks ids scope = .ok results ∧
    ∀ result, result ∈ results ↔
      (∃ id ∈ ids, result.1 ∈ catalog.tasks id scope) ∧ result.2 = catalog.options result.1
  qualified : ∀ id scope, ∀ target ∈ catalog.tasks id scope,
    ∃ projectId taskId, target = Target.new projectId taskId

def knownDeps (deps : List ProjectDependencyConfig) : Set (Id × DependencyScope) :=
  {e | ∃ dep ∈ deps, (dep.id, dep.scope) = e}

def mayDependOn (task : Task) (options : TaskOptions) : Bool :=
  !options.allowFailure && !(!options.runInCI.isEnabled && task.options.runInCI.isEnabled &&
      options.runInCI != .skip && task.options.runInCI != .skip) &&
    !(options.persistent && !task.options.persistent)

section

variable (c : Catalog) (rootProjectId : Option Id) (p : Project) (task : Task)

section

variable (known : Set (Id × DependencyScope))

def LooksIn : TargetProjectScope → Set Id
  | .all => ∅
  | .deps => {id | ∃ scope, (id, scope) ∈ known}
  | .depsOf scope => {id | (id, scope.toDependencyScope) ∈ known}
  | .ownSelf => {p.id}
  | .id value => {value}
  | .tag value => {id | id ∈ c.tagged value ∧ id ≠ p.id}

def Finds (dep : TaskDependencyConfig) : Set Target :=
  {target | ∃ id ∈ LooksIn c p known dep.target.project,
    target ∈ c.tasks id dep.target.task}

def ResolvesTo (dep : TaskDependencyConfig) : Set Target :=
  {target ∈ Finds c p known dep | target ≠ task.target}

end

def isParentScope : TargetProjectScope → Bool
  | .deps | .depsOf _ => true
  | _ => false

def linksProjects : TargetProjectScope → Bool
  | .id _ | .tag _ => true
  | _ => false

def skipsIfMissing (dep : TaskDependencyConfig) : Bool :=
  match dep.target.project with
  | .deps | .depsOf _ | .tag _ => dep.optional.getD true
  | _ => dep.optional.getD false

def NewEntries (known : Set (Id × DependencyScope)) (targets : Set Target) :
    Set (Id × DependencyScope) :=
  {e | (∃ target ∈ targets, target.getProjectId = some e.1) ∧ e.1 ≠ p.id ∧
    e.1 ∉ p.aliases ∧ (∀ scope, (e.1, scope) ∉ known) ∧
    e.2 = if rootProjectId = some e.1 then .root else .build}

def LinkedTargets (dep : TaskDependencyConfig) : Set Target :=
  {target ∈ ResolvesTo c p task ∅ dep | linksProjects dep.target.project = true}

/-- The project dependencies that a task brings in. -/
def Added (known : Set (Id × DependencyScope)) (deps : List TaskDependencyConfig) :
    Set (Id × DependencyScope) :=
  NewEntries rootProjectId p known {target | ∃ dep ∈ deps, target ∈ LinkedTargets c p task dep}

def createdDep (querent : TasksQuerent) (dep : TaskDependencyConfig) (target : Target) :
    TaskDependencyConfig :=
  { dep with
    target := target
    cacheStrategy := dep.cacheStrategy.or (some
      (if querent.queryTaskHasOutputs target then .hash else .ignored)) }

structure DepOk (known : Set (Id × DependencyScope)) (dep : TaskDependencyConfig) : Prop where
  supported : dep.target.project ≠ .all
  found : skipsIfMissing dep = true ∨ (Finds c p known dep).Nonempty
  allowed : ∀ target ∈ ResolvesTo c p task known dep, mayDependOn task (c.options target) = true

structure LoopAt (known : Set (Id × DependencyScope)) (entries : Set TaskDependencyConfig)
    (state : DepsState) : Prop where
  id : state.project.id = p.id
  aliases : state.project.aliases = p.aliases
  known : knownDeps state.project.dependencies = known
  entries : ∀ entry, entry ∈ entries ↔ entry ∈ state.deps

end

section

variable {q : TasksQuerent} {c : Catalog} {rootProjectId : Option Id}
  {p : Project} {task : Task} {taskId : String} {k : Set (Id × DependencyScope)}
  {es : Set TaskDependencyConfig} {s : DepsState} {dep : TaskDependencyConfig} {l : Bool}

variable (q dep) in
lemma checkAndCreateDep_of_allowed (t : Target) {os : TaskOptions} (h : mayDependOn task os) :
    checkAndCreateDep q task t os dep = .ok (createdDep q dep t) := by
  simp only [mayDependOn, Bool.and_eq_true, Bool.not_eq_true'] at h
  obtain ⟨⟨hf, hc⟩, hp⟩ := h
  simp only [checkAndCreateDep, hf, hc, hp, Bool.false_eq_true, if_false]
  rfl

lemma knownDeps_append (deps d' : List ProjectDependencyConfig) :
    knownDeps (deps ++ d') = knownDeps deps ∪ knownDeps d' := by
  ext e
  simp only [knownDeps, mem_append, Set.mem_ofPred_eq, Set.mem_union]
  exact ⟨fun ⟨dep, hd, heq⟩ => hd.imp (fun h => ⟨dep, h, heq⟩) (fun h => ⟨dep, h, heq⟩),
    fun h => h.elim (fun ⟨dep, hd, heq⟩ => ⟨dep, .inl hd, heq⟩)
      (fun ⟨dep, hd, heq⟩ => ⟨dep, .inr hd, heq⟩)⟩

lemma knownDeps_createProjectDep (hl : LoopAt p k es s) {t : TaskDependencyConfig} {pr j : String}
    (ht : t.target = new pr j) :
    knownDeps (createProjectDepFromTaskDep t s.project.id rootProjectId
      (fun d => s.project.aliases.contains d ||
        s.project.dependencies.any (fun dep => dep.id == d))).toList =
      NewEntries rootProjectId p k {t.target} := by
  have hk : s.project.dependencies.any (fun dep => dep.id == pr) ↔
      ∃ sc, (pr, sc) ∈ k := by
    simp [← hl.known, knownDeps]
  have hp : t.target.getProjectId = some pr := by
    rw [ht]
    rfl
  ext ⟨id, sc⟩
  simp only [createProjectDepFromTaskDep, hp, NewEntries, hl.id, hl.aliases,
    Set.mem_singleton_iff, exists_eq_left, Set.mem_ofPred_eq, Option.some.injEq]
  split
  next hex =>
    simp only [Bool.or_eq_true, beq_iff_eq, contains_iff_mem, hk] at hex
    simp only [knownDeps, Option.toList_none, not_mem_nil, false_and, exists_false,
      Set.ofPred_false, Set.mem_empty_iff_false, false_iff]
    rintro ⟨rfl, ho, hal, hf, -⟩
    obtain hsl | ha | ⟨already, hm⟩ := hex
    · exact ho hsl.symm
    · exact hal ha
    · exact hf already hm
  next hex =>
    simp only [Bool.or_eq_true, beq_iff_eq, contains_iff_mem, hk, not_or, not_exists] at hex
    simp only [knownDeps, Option.toList_some, mem_singleton, exists_eq_left,
      Set.mem_ofPred_eq, Prod.mk.injEq, beq_iff_eq]
    constructor
    · rintro ⟨rfl, rfl⟩
      exact ⟨rfl, Ne.symm hex.1, hex.2.1, hex.2.2, rfl⟩
    · rintro ⟨rfl, -, -, -, hs⟩
      exact ⟨rfl, hs.symm⟩

lemma buildDepResult_eq (hts : task.target = new p.id taskId) (hl : LoopAt p k es s)
    {r : Target × TaskOptions} {pr j : String} (htg : r.1 = new pr j) :
    buildDepResult q rootProjectId task dep l s r = if r.1 = task.target then .ok s else do
        let t ← checkAndCreateDep q task r.1 r.2 dep
        let projectDep :=
          if l then
            createProjectDepFromTaskDep t s.project.id rootProjectId
              (fun d => s.project.aliases.contains d ||
                s.project.dependencies.any (fun dep => dep.id == d))
          else none
        return {
          deps := if s.deps.contains t then s.deps else s.deps ++ [t]
          project := { s.project with
            dependencies := s.project.dependencies ++ projectDep.toList } } := by
  have hs : r.1 = task.target ↔ pr = p.id ∧ j = taskId := by
    simp [htg, hts, new]
  have hp : r.1.getProjectId = some pr := by rw [htg]; rfl
  have ho : r.1.getTaskId = some j := by rw [htg]; rfl
  have ht : task.target.getTaskId = some taskId := by rw [hts]; rfl
  unfold buildDepResult
  simp only [hp, ho, ht, hl.id, hs]
  by_cases hi : pr = p.id
  · by_cases ht : j = taskId
    · simp [hi, ht]
      rfl
    · have hn : (j == taskId) = false := beq_eq_false_iff_ne.mpr ht
      simp [hi, ht, hn]
      rfl
  · simp [hi]
    rfl

lemma newEntries_union (k : Set (Id × DependencyScope)) (f se : Set Target) :
    k ∪ NewEntries rootProjectId p k (f ∪ se) = k ∪ NewEntries rootProjectId p k f ∪
        NewEntries rootProjectId p (k ∪ NewEntries rootProjectId p k f) se := by
  ext ⟨id, scope⟩
  constructor
  · rintro (hk | ⟨⟨t, hfs | hs, hp⟩, ho, hal, hf, hsc⟩)
    · exact .inl (.inl hk)
    · exact .inl (.inr ⟨⟨t, hfs, hp⟩, ho, hal, hf, hsc⟩)
    · by_cases ha : ∃ t ∈ f, t.getProjectId = some id
      · exact .inl (.inr ⟨ha, ho, hal, hf, hsc⟩)
      · refine .inr ⟨⟨t, hs, hp⟩, ho, hal, ?_, hsc⟩
        rintro s' (hk | hn)
        · exact hf s' hk
        · exact ha hn.1
  · rintro ((hk | ⟨⟨t, hfs, hp⟩, hr⟩) | ⟨⟨t, hs, hp⟩, ho, hal, hf, hsc⟩)
    · exact .inl hk
    · exact .inr ⟨⟨t, .inl hfs, hp⟩, hr⟩
    · exact .inr ⟨⟨t, .inr hs, hp⟩, ho, hal, fun s' hk => hf s' (.inl hk), hsc⟩

lemma newEntries_empty (k : Set (Id × DependencyScope)) : NewEntries rootProjectId p k ∅ = ∅ := by
  simp [NewEntries]

variable (task l) in
def linkedResults (results : List (Target × TaskOptions)) : Set Target :=
  {target | target ∈ results.map Prod.fst ∧ target ≠ task.target ∧ l = true}

variable (task) in
def keptResults (results : List (Target × TaskOptions)) : Set Target :=
  {target | target ∈ results.map Prod.fst ∧ target ≠ task.target}

variable (q rootProjectId dep l) in
lemma LoopAt.result (hts : task.target = new p.id taskId) (hlp : LoopAt p k es s)
    {r : Target × TaskOptions} (hq : ∃ pr j, r.1 = new pr j)
    (ha : r.1 ≠ task.target → mayDependOn task r.2) :
    ∃ state', buildDepResult q rootProjectId task dep l s r = .ok state' ∧
      LoopAt p (k ∪ NewEntries rootProjectId p k (linkedResults task l [r]))
        (es ∪ Set.image (createdDep q dep) (keptResults task [r])) state' := by
  obtain ⟨pr, j, ht⟩ := hq
  rw [buildDepResult_eq hts hlp ht]
  by_cases hs : r.1 = task.target
  · have hl : linkedResults task l [r] = ∅ := by
      simp [linkedResults, hs, Set.eq_empty_iff_forall_notMem]
    have hk : keptResults task [r] = ∅ := by
      simp [keptResults, hs]
    rw [if_pos hs, hl, hk, newEntries_empty, Set.image_empty, Set.union_empty, Set.union_empty]
    exact ⟨s, rfl, hlp⟩
  · have hk : keptResults task [r] = {r.1} := by
      ext target
      simp only [keptResults, map_cons, map_nil, mem_singleton,
        Set.mem_ofPred_eq, Set.mem_singleton_iff]
      exact ⟨fun h => h.1, fun h => ⟨h, h ▸ hs⟩⟩
    rw [if_neg hs, checkAndCreateDep_of_allowed q dep r.1 (ha hs)]
    refine ⟨_, rfl, ⟨hlp.id, hlp.aliases, ?_, ?_⟩⟩
    · rw [knownDeps_append, hlp.known]
      cases l with
      | false => simp [linkedResults, newEntries_empty, knownDeps]
      | true =>
        have hl : linkedResults task true [r] = {(createdDep q dep r.1).target} := by
          change linkedResults task true [r] = {r.1}
          rw [← hk]
          simp [linkedResults, keptResults]
        rw [hl, ← knownDeps_createProjectDep hlp ht, if_pos rfl]
    · intro e
      rw [hk, Set.image_singleton, Set.mem_union, Set.mem_singleton_iff, hlp.entries]
      split
      next hc =>
        refine ⟨fun h => h.elim (fun h => h) (fun h => ?_), .inl⟩
        rw [h]
        simpa using hc
      next => simp

variable (q rootProjectId dep l) in
lemma LoopAt.results (ht : task.target = new p.id taskId) (hlp : LoopAt p k es s)
    {results : List (Target × TaskOptions)} (hq : ∀ r ∈ results, ∃ pr j, r.1 = new pr j)
    (ha : ∀ r ∈ results, r.1 ≠ task.target → mayDependOn task r.2) :
    ∃ state', results.foldlM (buildDepResult q rootProjectId task dep l) s = .ok state' ∧
      LoopAt p (k ∪ NewEntries rootProjectId p k (linkedResults task l results))
        (es ∪ Set.image (createdDep q dep) (keptResults task results)) state' := by
  induction results generalizing k es s with
  | nil =>
    refine ⟨s, rfl, ?_⟩
    have hl : linkedResults task l [] = ∅ := by simp [linkedResults]
    have hk : keptResults task [] = ∅ := by simp [keptResults]
    rwa [hl, hk, newEntries_empty, Set.image_empty, Set.union_empty, Set.union_empty]
  | cons r results ih =>
    obtain ⟨next, hnx, hn⟩ := hlp.result q rootProjectId dep l
      ht (hq r mem_cons_self) (ha r mem_cons_self)
    obtain ⟨state', hs', hl'⟩ := ih hn (fun o ho => hq o (mem_cons_of_mem _ ho))
      (fun o ho => ha o (mem_cons_of_mem _ ho))
    refine ⟨state', ?_, ?_⟩
    · rw [foldlM_cons, hnx]
      exact hs'
    · have hl : linkedResults task l (r :: results) =
          linkedResults task l [r] ∪ linkedResults task l results := by
        ext t
        simp [linkedResults, or_and_right]
      have hk : keptResults task (r :: results) =
          keptResults task [r] ∪ keptResults task results := by
        ext t
        simp [keptResults, or_and_right]
      rw [hl, hk, newEntries_union, Set.image_union, ← Set.union_assoc]
      exact hl'

lemma allowed_of_results (ht : task.target = new p.id taskId)
    (hl : LoopAt p k es s) {results : List (Target × TaskOptions)}
    (hq : ∀ r ∈ results, ∃ pr j, r.1 = new pr j) {state' : DepsState}
    (h : results.foldlM (buildDepResult q rootProjectId task dep l) s = .ok state') :
    ∀ r ∈ results, r.1 ≠ task.target → mayDependOn task r.2 := by
  induction results generalizing k es s with
  | nil => simp
  | cons r results ih =>
    rw [foldlM_cons] at h
    obtain ⟨next, hn, hr⟩ := bind_eq_ok h
    have hh := hq r mem_cons_self
    have ha (hs : r.1 ≠ task.target) : mayDependOn task r.2 := by
      obtain ⟨pr, j, htg⟩ := hh
      rw [buildDepResult_eq ht hl htg, if_neg hs] at hn
      obtain ⟨taskDep, hc, -⟩ := bind_eq_ok hn
      unfold checkAndCreateDep at hc
      split at hc
      · cases hc
      next hf =>
        split at hc
        · cases hc
        next hci =>
          split at hc
          · cases hc
          next hp => simp [mayDependOn, hf, hci, hp]
    obtain ⟨next', hn', hnxt⟩ := hl.result q rootProjectId dep l ht hh ha
    rw [hn] at hn'
    cases hn'
    exact forall_mem_cons.mpr ⟨ha, ih hnxt (fun o ho => hq o (mem_cons_of_mem _ ho)) hr⟩

variable (task) in
lemma depProjectScope_eq (ha : AnswersFrom q c)
    (hl : LoopAt p k es s) (hsp : dep.target.project ≠ .all) :
    ∃ ids, depProjectScope q s.project task.target dep =
        .ok (ids, skipsIfMissing dep, linksProjects dep.target.project) ∧
      ∀ id, id ∈ ids ↔ id ∈ LooksIn c p k dep.target.project := by
  unfold depProjectScope skipsIfMissing
  cases hs : dep.target.project with
  | all => exact absurd hs hsp
  | deps =>
    refine ⟨_, rfl, fun id => ?_⟩
    simp [LooksIn, ← hl.known, knownDeps]
  | depsOf scope =>
    refine ⟨_, rfl, fun id => ?_⟩
    simp only [LooksIn, ← hl.known, knownDeps, mem_map, mem_filter, beq_iff_eq,
      Set.mem_ofPred_eq, Prod.mk.injEq]
    exact ⟨fun ⟨o, ho, hi⟩ => ⟨o, ho.1, hi, ho.2⟩, fun ⟨o, ho, hi, hs⟩ => ⟨o, ⟨ho, hs⟩, hi⟩⟩
  | ownSelf =>
    refine ⟨_, rfl, fun id => ?_⟩
    simp [LooksIn, hl.id]
  | id v =>
    refine ⟨_, rfl, fun id => ?_⟩
    simp [LooksIn]
  | tag v =>
    obtain ⟨ids, hids, hm⟩ := ha.tags v
    refine ⟨ids.filter (· != s.project.id), ?_, fun id => ?_⟩
    · change (q.queryProjectsByTag v >>= _) = _
      rw [hids]
      rfl
    · simp [LooksIn, hm, hl.id]

lemma queryTasks_finds (ha : AnswersFrom q c) {ids : List Id}
    (hi : ∀ id, id ∈ ids ↔ id ∈ LooksIn c p k dep.target.project) :
    ∃ results, q.queryTasks ids dep.target.task = .ok results ∧
      (∀ t, t ∈ results.map Prod.fst ↔ t ∈ Finds c p k dep) ∧
      ∀ r ∈ results, r.2 = c.options r.1 ∧ ∃ pr j, r.1 = new pr j := by
  obtain ⟨results, hrs, hm⟩ := ha.tasks ids dep.target.task
  refine ⟨results, hrs, fun t => ?_, fun r hr => ?_⟩
  · constructor
    · intro h
      obtain ⟨r, hr, rfl⟩ := mem_map.mp h
      obtain ⟨⟨id, hid, ht⟩, -⟩ := (hm r).mp hr
      exact ⟨id, (hi id).mp hid, ht⟩
    · rintro ⟨id, hid, ht⟩
      exact mem_map.mpr ⟨(t, c.options t), (hm _).mpr ⟨⟨id, (hi id).mpr hid, ht⟩, rfl⟩, rfl⟩
  · obtain ⟨⟨id, -, ht⟩, ho⟩ := (hm r).mp hr
    exact ⟨ho, ha.qualified _ _ _ ht⟩

lemma finds_eq_of_not_parent (hpar : isParentScope dep.target.project = false)
    (k' : Set (Id × DependencyScope)) : Finds c p k dep = Finds c p k' dep := by
  have hl : LooksIn c p k dep.target.project = LooksIn c p k' dep.target.project := by
    cases hsc : dep.target.project <;> simp_all [isParentScope, LooksIn]
  unfold Finds
  rw [hl]

lemma resolvesTo_eq_of_not_parent (hp : isParentScope dep.target.project = false)
    (k' : Set (Id × DependencyScope)) : ResolvesTo c p task k dep = ResolvesTo c p task k' dep := by
  unfold ResolvesTo
  rw [finds_eq_of_not_parent hp k']

lemma DepOk.of_not_parent (ho : DepOk c p task k dep)
    (hp : isParentScope dep.target.project = false)
    (k' : Set (Id × DependencyScope)) : DepOk c p task k' dep where
  supported := ho.supported
  found := finds_eq_of_not_parent hp k' ▸ ho.found
  allowed := resolvesTo_eq_of_not_parent hp k' ▸ ho.allowed

lemma not_parent_of_linksProjects (h : linksProjects dep.target.project) :
    isParentScope dep.target.project = false := by
  cases hsc : dep.target.project <;> simp_all [linksProjects, isParentScope]

lemma buildDep_eq {ids : List Id} {skip : Bool} {results : List (Target × TaskOptions)}
    (hi : depProjectScope q s.project task.target dep = .ok (ids, skip, l))
    (hr : q.queryTasks ids dep.target.task = .ok results) :
    buildDep q rootProjectId task s dep =
      if (results.isEmpty && !skip) = true then .error (unknownDepError task.target dep)
      else results.foldlM (buildDepResult q rootProjectId task dep l) s := by
  unfold buildDep
  rw [hi]
  change (q.queryTasks ids dep.target.task >>= _) = _
  rw [hr]
  change (if (results.isEmpty && !skip) = true then _ else _) = _
  split <;> rfl

variable (rootProjectId) in
lemma LoopAt.buildDep (ha : AnswersFrom q c) (hts : task.target = new p.id taskId)
    (hlp : LoopAt p k es s) (ho : DepOk c p task k dep) :
    ∃ state', Moon.buildDep q rootProjectId task s dep = .ok state' ∧
      LoopAt p (k ∪ NewEntries rootProjectId p k (LinkedTargets c p task dep))
        (es ∪ Set.image (createdDep q dep) (ResolvesTo c p task k dep))
        state' := by
  obtain ⟨ids, hi, hm⟩ := depProjectScope_eq task ha hlp ho.supported
  obtain ⟨results, hrs, hf, hr⟩ := queryTasks_finds ha hm
  obtain ⟨state', hs', hl'⟩ := hlp.results q rootProjectId dep
    (linksProjects dep.target.project) hts (fun r h => (hr r h).2)
    (fun r h hsl => by
      rw [(hr r h).1]
      exact ho.allowed _ ⟨(hf _).mp (mem_map_of_mem h), hsl⟩)
  have hk : keptResults task results = ResolvesTo c p task k dep := by
    ext t
    simp only [keptResults, hf]
    rfl
  have hlk : linkedResults task (linksProjects dep.target.project) results =
      LinkedTargets c p task dep := by
    ext t
    by_cases hl : linksProjects dep.target.project
    · have hsm : ResolvesTo c p task k dep = ResolvesTo c p task ∅ dep :=
        resolvesTo_eq_of_not_parent (not_parent_of_linksProjects hl) ∅
      simp only [linkedResults, LinkedTargets, ← hsm, hl, hf]
      simp [ResolvesTo]
    · simp [linkedResults, LinkedTargets, hl]
  refine ⟨state', ?_, ?_⟩
  · have hfd : (results.isEmpty && !skipsIfMissing dep) = false := by
      obtain hs | ⟨t, ht⟩ := ho.found
      · simp [hs]
      · obtain ⟨r, hm, -⟩ := mem_map.mp ((hf t).mpr ht)
        simp [ne_nil_of_mem hm]
    rw [buildDep_eq hi hrs, hfd, if_neg Bool.false_ne_true]
    exact hs'
  · rw [← hk, ← hlk]
    exact hl'

lemma depOk_of_buildDep (ha : AnswersFrom q c) (hts : task.target = new p.id taskId)
    (hl : LoopAt p k es s) {state' : DepsState}
    (h : buildDep q rootProjectId task s dep = .ok state') : DepOk c p task k dep := by
  have hsp : dep.target.project ≠ .all := by
    intro hal
    unfold buildDep depProjectScope at h
    rw [hal] at h
    cases h
  obtain ⟨ids, hi, hm⟩ := depProjectScope_eq task ha hl hsp
  obtain ⟨results, hrs, hf, hr⟩ := queryTasks_finds ha hm
  rw [buildDep_eq hi hrs] at h
  split at h
  · cases h
  next hfd =>
    have halw := allowed_of_results hts hl (fun r h => (hr r h).2) h
    refine ⟨hsp, ?_, ?_⟩
    · by_cases hs : skipsIfMissing dep
      · exact .inl hs
      · have hne : results ≠ [] := by
          intro hn
          exact hfd (by simp [hn, hs])
        obtain ⟨r, hm⟩ := exists_mem_of_ne_nil results hne
        exact .inr ⟨r.1, (hf _).mp (mem_map_of_mem hm)⟩
    · rintro t ⟨ht, hsl⟩
      obtain ⟨r, hm, rfl⟩ := mem_map.mp ((hf t).mpr ht)
      rw [← (hr r hm).1]
      exact halw r hm hsl

end

section

variable {q : TasksQuerent} {c : Catalog} {rootProjectId : Option Id}
  {p : Project} {task : Task} {taskId : String}
  {k k' : Set (Id × DependencyScope)} {es : Set TaskDependencyConfig} {s state' : DepsState}
  {dep : TaskDependencyConfig} {deps : List TaskDependencyConfig}

lemma finds_mono (h : k ⊆ k') : Finds c p k dep ⊆ Finds c p k' dep := by
  rintro t ⟨id, hi, ht⟩
  refine ⟨id, ?_, ht⟩
  cases hs : dep.target.project with
  | deps =>
    rw [hs] at hi
    exact hi.imp (fun scope hm => h hm)
  | depsOf scope =>
    rw [hs] at hi
    exact h hi
  | all | ownSelf | id v | tag v => rwa [hs] at hi

lemma resolvesTo_mono (h : k ⊆ k') : ResolvesTo c p task k dep ⊆ ResolvesTo c p task k' dep :=
  fun _ ht => ⟨finds_mono h ht.1, ht.2⟩

lemma added_cons (k : Set (Id × DependencyScope)) (dep : TaskDependencyConfig)
    (deps : List TaskDependencyConfig) :
    k ∪ Added c rootProjectId p task k (dep :: deps) =
      k ∪ NewEntries rootProjectId p k (LinkedTargets c p task dep) ∪
        Added c rootProjectId p task (k ∪ NewEntries rootProjectId p k
          (LinkedTargets c p task dep)) deps := by
  have hs : {t | ∃ other ∈ dep :: deps, t ∈ LinkedTargets c p task other} =
      LinkedTargets c p task dep ∪ {t | ∃ other ∈ deps, t ∈ LinkedTargets c p task other} := by
    ext t
    simp
  unfold Added
  rw [hs, newEntries_union]

lemma exists_run (ha : AnswersFrom q c) (ht : task.target = new p.id taskId) (hl : LoopAt p k es s)
    (hok : ∀ dep ∈ deps, ∀ b, k ⊆ b →
      b ⊆ k ∪ Added c rootProjectId p task k deps →
      DepOk c p task b dep) :
    ∃ state', deps.foldlM (buildDep q rootProjectId task) s = .ok state' := by
  induction deps generalizing k es s with
  | nil => exact ⟨s, rfl⟩
  | cons dep deps ih =>
    obtain ⟨next, hnx, hn⟩ := hl.buildDep rootProjectId ha ht
      (hok dep mem_cons_self k subset_rfl Set.subset_union_left)
    obtain ⟨state', hs'⟩ := ih hn (fun o ho b hf hto =>
      hok o (mem_cons_of_mem _ ho) b (Set.subset_union_left.trans hf) (by rwa [added_cons]))
    refine ⟨state', ?_⟩
    rw [foldlM_cons, hnx]
    exact hs'

lemma LoopAt.run (ha : AnswersFrom q c) (hts : task.target = new p.id taskId)
    (hl : LoopAt p k es s) (h : deps.foldlM (Moon.buildDep q rootProjectId task) s = .ok state') :
    ∃ es', LoopAt p (k ∪ Added c rootProjectId p task k deps)
        es' state' ∧ es ⊆ es' ∧
      (∀ dep ∈ deps, ∃ b, k ⊆ b ∧
        b ⊆ k ∪ Added c rootProjectId p task k deps ∧
        DepOk c p task b dep ∧
        ∀ t ∈ ResolvesTo c p task b dep, createdDep q dep t ∈ es') ∧
      ∀ e ∈ es', e ∈ es ∨ ∃ dep ∈ deps, ∃ t ∈ ResolvesTo c p
        task (k ∪ Added c rootProjectId p task k deps) dep, e = createdDep q dep t := by
  induction deps generalizing k es s with
  | nil =>
    cases h
    refine ⟨es, ?_, subset_rfl, by simp, fun e hen => .inl hen⟩
    have hn : Added c rootProjectId p task k [] = ∅ := by
      simp [Added, newEntries_empty]
    rwa [hn, Set.union_empty]
  | cons dep deps ih =>
    rw [foldlM_cons] at h
    obtain ⟨next, hnx, hr⟩ := bind_eq_ok h
    have hok := depOk_of_buildDep ha hts hl hnx
    obtain ⟨next', hn', hnxt⟩ := hl.buildDep rootProjectId ha hts hok
    rw [hnx] at hn'
    cases hn'
    obtain ⟨es', hl', hs, hbt, hrsv⟩ := ih hnxt hr
    rw [added_cons]
    refine ⟨es', hl', Set.subset_union_left.trans hs, ?_, ?_⟩
    · have hh : ∀ t ∈ ResolvesTo c p task k dep, createdDep q dep t ∈ es' := fun t ht =>
        hs (.inr (Set.mem_image_of_mem _ ht))
      refine forall_mem_cons.mpr ⟨⟨k, subset_rfl,
        Set.subset_union_left.trans Set.subset_union_left, hok, hh⟩, fun o ho => ?_⟩
      obtain ⟨b, hf, hr⟩ := hbt o ho
      exact ⟨b, Set.subset_union_left.trans hf, hr⟩
    · intro e hen
      obtain (hb | ⟨t, ht, rfl⟩) | ⟨o, ho, hm⟩ := hrsv e hen
      · exact .inl hb
      · have hlt : k ⊆ k ∪ NewEntries rootProjectId p k
            (LinkedTargets c p task dep) ∪ Added c rootProjectId p task
            (k ∪ NewEntries rootProjectId p k (LinkedTargets c p task dep)) deps :=
          Set.subset_union_left.trans Set.subset_union_left
        exact .inr ⟨dep, mem_cons_self, t, resolvesTo_mono hlt ht, rfl⟩
      · exact .inr ⟨o, mem_cons_of_mem _ ho, hm⟩

end

end Moon.Proofs
