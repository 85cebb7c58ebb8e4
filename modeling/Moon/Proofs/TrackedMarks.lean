import Moon.Proofs.AffectedWalk

/-!
# The marks of a tracked workspace

Walks only add marks that are not direct, so a check finds the same whether or not an item was
reached by a walk before.
-/

namespace Moon.Proofs

open Moon.Lib List TrackCall

section

open AffectedMarks

variable (config : AffectedTrackerConfig)

/-- The relations of the projects and tasks of a workspace stay in it, and they can be
loaded by what they are known by. -/
structure Connected (workspace : WorkspaceGraph) : Prop where
  project : ∀ project ∈ workspace.projects, workspace.getProject project.id = .ok project
  dependency : ∀ project ∈ workspace.projects, ∀ id ∈ project.getDependencyIds,
    id ∈ workspace.projects.map (·.id)
  dependent : ∀ project ∈ workspace.projects, ∀ id ∈ workspace.projectDependents project.id,
    id ∈ workspace.projects.map (·.id)
  task : ∀ task ∈ workspace.tasks, workspace.getTask task.target = .ok task
  taskDependency : ∀ task ∈ workspace.tasks, ∀ dep ∈ task.deps,
    dep.target ∈ workspace.tasks.map (·.target)
  taskDependent : ∀ task ∈ workspace.tasks, ∀ target ∈ workspace.taskDependents task.target,
    target ∈ workspace.tasks.map (·.target)

def ProjectUpstream : Id → Id → AffectedBy → Prop :=
  WalkMark (fun id => orError (config.workspace.getProject id)) Project.getDependencyIds
    .downstreamProject (config.projectUpstream == .none) (config.projectUpstream == .direct)

def ProjectDownstream : Id → Id → AffectedBy → Prop :=
  WalkMark (fun id => orError (config.workspace.getProject id))
    (fun project => config.workspace.projectDependents project.id)
    .upstreamProject (config.projectDownstream == .none) (config.projectDownstream == .direct)

def TaskUpstream : Target → Target → AffectedBy → Prop :=
  WalkMark (fun target => orError (config.workspace.getTask target))
    (fun task => task.deps.map (·.target))
    .downstreamTask (config.taskUpstream == .none) (config.taskUpstream == .direct)

def TaskDownstream : Target → Target → AffectedBy → Prop :=
  WalkMark (fun target => orError (config.workspace.getTask target))
    (fun task => config.workspace.taskDependents task.target)
    .upstreamTask (config.taskDownstream == .none) (config.taskDownstream == .direct)

variable {config} {marks : AffectedMarks}
  {K N : Type} {key : N → K} {l : K → Except WorkspaceError N} {all : List N}

lemma loadable_of_keys [DecidableEq K] {rs : N → List K} (hl : ∀ x ∈ all, l (key x) = .ok x)
    (hin : ∀ x ∈ all, ∀ k ∈ rs x, k ∈ all.map key) :
    Loadable key (fun k => orError (l k)) rs (all.map key).toFinset where
  loads k hk := by
    obtain ⟨x, hi, rfl⟩ := mem_map.mp (mem_toFinset.mp hk)
    refine ⟨x, ?_, rfl⟩
    rw [hl x hi]
    rfl
  inside source hs target := by
    rintro ⟨f, hf, ht⟩
    obtain ⟨x, hi, rfl⟩ := mem_map.mp (mem_toFinset.mp hs)
    simp only [hl x hi] at hf
    cases hf
    exact mem_toFinset.mpr (hin _ hi target ht)

lemma trackRelations_of_mem [DecidableEq K] (rs : N → List K) (re : K → AffectedBy)
    (hrs : ∀ k, (re k).isDirect = false) (hl : ∀ x ∈ all, l (key x) = .ok x)
    (hin : ∀ x ∈ all, ∀ k ∈ rs x, k ∈ all.map key) {x : N} (hi : x ∈ all) (isNone i : Bool)
    (marks : Map K (List AffectedBy)) :
    ∃ r, trackRelations key (fun k => orError (l k)) rs re isNone i
        (all.length + 2) 0 x marks ∅ = .ok r ∧
      (Reasoned marks → Reasoned r.1) ∧
      ∀ k m, HasMark r.1 k m ↔ HasMark marks k m ∨
        WalkMark (fun k => orError (l k)) rs re isNone i (key x) k m := by
  have hk : key x ∈ (all.map key).toFinset := mem_toFinset.mpr (mem_map_of_mem hi)
  have hs : orError (l (key x)) = .ok x := by
    rw [hl x hi]
    rfl
  have hf : (all.map key).toFinset.card < all.length + 2 := by
    have hc := toFinset_card_le (all.map key)
    rw [length_map] at hc
    omega
  obtain ⟨r, hr, hm⟩ := trackRelations_marks (loadable_of_keys hl hin) hk hs isNone i marks hf
  exact ⟨r, hr, (trackRelations_spec hrs hr).reasoned, hm⟩

variable {task : Task}

lemma trackTaskRelations_marks (hconnected : Connected config.workspace)
    (ht : task ∈ config.workspace.tasks) (marks : AffectedMarks) :
    ∃ ms', (do
        let marks ← trackTaskDependencies config task marks
        trackTaskDependents config task marks) = .ok ms' ∧
      ms'.projects = marks.projects ∧ (Reasoned marks.tasks → Reasoned ms'.tasks) ∧
      ∀ k m, HasMark ms'.tasks k m ↔ HasMark marks.tasks k m ∨
        TaskUpstream config task.target k m ∨ TaskDownstream config task.target k m := by
  have hdp : ∀ task ∈ config.workspace.tasks, ∀ k ∈ task.deps.map (·.target),
      k ∈ config.workspace.tasks.map (·.target) := by
    intro task ht k hk
    obtain ⟨dep, hde, rfl⟩ := mem_map.mp hk
    exact hconnected.taskDependency task ht dep hde
  obtain ⟨up, hup, hupR, hu⟩ := trackRelations_of_mem
    (fun task => task.deps.map (·.target)) .downstreamTask (fun _ => rfl) hconnected.task hdp
    ht (config.taskUpstream == .none) (config.taskUpstream == .direct) marks.tasks
  obtain ⟨down, hdw, hdwn, hd⟩ := trackRelations_of_mem
    (fun task => config.workspace.taskDependents task.target) .upstreamTask (fun _ => rfl)
    hconnected.task hconnected.taskDependent ht (config.taskDownstream == .none)
    (config.taskDownstream == .direct) up.1
  refine ⟨{ marks with tasks := down.1 }, ?_, rfl, fun h => hdwn (hupR h), fun k m => ?_⟩
  · have hf : trackTaskDependencies config task marks = .ok { marks with tasks := up.1 } := by
      unfold trackTaskDependencies
      rw [hup]
      rfl
    rw [hf]
    change trackTaskDependents config task { marks with tasks := up.1 } = _
    unfold trackTaskDependents
    rw [hdw]
    rfl
  · rw [hd, hu, or_assoc]
    rfl

variable {project : Project}

lemma trackProjectRelations_marks (hconnected : Connected config.workspace)
    (hp : project ∈ config.workspace.projects) (marks : AffectedMarks) :
    ∃ ms', (do
        let marks ← trackProjectDependencies config project marks
        trackProjectDependents config project marks) = .ok ms' ∧
      ms'.tasks = marks.tasks ∧ (Reasoned marks.projects → Reasoned ms'.projects) ∧
      ∀ k m, HasMark ms'.projects k m ↔ HasMark marks.projects k m ∨
        ProjectUpstream config project.id k m ∨ ProjectDownstream config project.id k m := by
  obtain ⟨up, hup, hupR, hu⟩ := trackRelations_of_mem Project.getDependencyIds
    .downstreamProject (fun _ => rfl) hconnected.project hconnected.dependency hp
    (config.projectUpstream == .none) (config.projectUpstream == .direct) marks.projects
  obtain ⟨down, hdw, hdwn, hd⟩ := trackRelations_of_mem
    (fun project => config.workspace.projectDependents project.id) .upstreamProject (fun _ => rfl)
    hconnected.project hconnected.dependent hp (config.projectDownstream == .none)
    (config.projectDownstream == .direct) up.1
  refine ⟨{ marks with projects := down.1 }, ?_, rfl, fun h => hdwn (hupR h), fun k m => ?_⟩
  · have hf : trackProjectDependencies config project marks =
        .ok { marks with projects := up.1 } := by
      unfold trackProjectDependencies
      rw [hup]
      rfl
    rw [hf]
    change trackProjectDependents config project { marks with projects := up.1 } = _
    unfold trackProjectDependents
    rw [hdw]
    rfl
  · rw [hd, hu, or_assoc]
    rfl

/-- What a tracking call checks in turn. -/
inductive TrackedItem
  | project (project : Project)
  | task (task : Task)

variable (config) in
def trackItem (marks : AffectedMarks) : TrackedItem → Except String AffectedMarks
  | .project project => return (← affectProject config marks project).getD marks
  | .task task => return (← affectTask config marks task).getD marks

def TrackedItem.Known (config : AffectedTrackerConfig) : TrackedItem → Prop
  | .project known => known ∈ config.workspace.projects
  | .task known => known ∈ config.workspace.tasks ∧
      ∃ found, isTaskAffected config {} known = .ok found

variable (config) in
/-- The marks on tasks that checking the item leaves. -/
def ItemTaskMark (target : Target) (mark : AffectedBy) : TrackedItem → Prop
  | .project _ => False
  | .task task => ∃ reason, isTaskAffected config {} task = .ok (some reason) ∧
      (target = task.target ∧ mark = reason ∨ TaskUpstream config task.target target mark ∨
        TaskDownstream config task.target target mark)

variable (config) in
/-- A project that is affected on its own marks itself and its relations within the scopes,
and a task marks its project. -/
def ItemProjectMark (id : Id) (mark : AffectedBy) : TrackedItem → Prop
  | .project project => ∃ reason, isProjectAffected config {} project = some reason ∧
      (id = project.id ∧ mark = reason ∨ ProjectUpstream config project.id id mark ∨
        ProjectDownstream config project.id id mark)
  | .task task => (∃ reason, isTaskAffected config {} task = .ok (some reason)) ∧
      task.target.getProjectId = some id ∧ mark = .task task.target

variable (config) in
/-- The marks are those that the items call for. -/
structure Exact (items : List TrackedItem) (marks : AffectedMarks) : Prop where
  tasks : ∀ target mark, HasMark marks.tasks target mark ↔
    ∃ item ∈ items, ItemTaskMark config target mark item
  projects : ∀ id mark, HasMark marks.projects id mark ↔
    ∃ item ∈ items, ItemProjectMark config id mark item
  reasonedTasks : Reasoned marks.tasks
  reasonedProjects : Reasoned marks.projects

lemma exact_nil : Exact config [] {} :=
  ⟨fun _ _ => by simp [HasMark], fun _ _ => by simp [HasMark], fun _ => by simp, fun _ => by simp⟩

variable {mark : AffectedBy}

lemma WalkMark.not_direct [DecidableEq K] {l : K → Except String N} {rs : N → List K}
    {r : K → AffectedBy} {isNone i : Bool} {start k : K} (hr : ∀ k, (r k).isDirect = false)
    (h : WalkMark l rs r isNone i start k mark) : mark.isDirect = false := by
  obtain ⟨_, s, _, _, rfl⟩ := h
  exact hr s

section

variable (hconnected : Connected config.workspace)

include hconnected

lemma Exact.task_of_directlyMarked {xs : List TrackedItem}
    (hknown : ∀ x ∈ xs, x.Known config) (hexact : Exact config xs marks)
    (hts : task ∈ config.workspace.tasks) (hd : directlyMarked marks.tasks task.target) :
    TrackedItem.task task ∈ xs ∧ ∃ r, isTaskAffected config {} task = .ok (some r) := by
  obtain ⟨mark, hmr, hm⟩ := directlyMarked_iff.mp hd
  obtain ⟨x, hi, how⟩ := (hexact.tasks _ _).mp hmr
  cases x with
  | project project => exact how.elim
  | task o =>
    obtain ⟨r, hr, ⟨ht, rfl⟩ | hu | hdw⟩ := how
    · have ho : o ∈ config.workspace.tasks := (hknown _ hi).1
      have hs := hconnected.task task hts
      rw [ht, hconnected.task o ho] at hs
      cases hs
      exact ⟨hi, _, hr⟩
    · cases (WalkMark.not_direct (fun _ => rfl) hu).symm.trans hm
    · cases (WalkMark.not_direct (fun _ => rfl) hdw).symm.trans hm

lemma Exact.project_of_directlyMarked {xs : List TrackedItem} (hknown : ∀ x ∈ xs, x.Known config)
    (hexact : Exact config xs marks) (hp : project ∈ config.workspace.projects)
    (hd : directlyMarked marks.projects project.id) :
    TrackedItem.project project ∈ xs ∧ ∃ r, isProjectAffected config {} project = some r := by
  obtain ⟨mark, hmr, hm⟩ := directlyMarked_iff.mp hd
  obtain ⟨x, hi, how⟩ := (hexact.projects _ _).mp hmr
  cases x with
  | task task =>
    obtain ⟨_, _, rfl⟩ := how
    cases hm
  | project o =>
    obtain ⟨r, hr, ⟨hid, rfl⟩ | hu | hdw⟩ := how
    · have ho : o ∈ config.workspace.projects := hknown _ hi
      have hs := hconnected.project project hp
      rw [hid, hconnected.project o ho] at hs
      cases hs
      exact ⟨hi, _, hr⟩
    · cases (WalkMark.not_direct (fun _ => rfl) hu).symm.trans hm
    · cases (WalkMark.not_direct (fun _ => rfl) hdw).symm.trans hm

lemma markTaskAffected_marks (ht : task ∈ config.workspace.tasks) {r : AffectedBy}
    (hr : r ≠ .alreadyMarked) (marks : AffectedMarks) :
    ∃ ms', markTaskAffected config task r marks = .ok ms' ∧
      (Reasoned marks.tasks → Reasoned ms'.tasks) ∧
      (Reasoned marks.projects → Reasoned ms'.projects) ∧
      (∀ k m, HasMark ms'.tasks k m ↔ HasMark marks.tasks k m ∨
        (k = task.target ∧ m = r ∨ TaskUpstream config task.target k m ∨
          TaskDownstream config task.target k m)) ∧
      ∀ k m, HasMark ms'.projects k m ↔ HasMark marks.projects k m ∨
        task.target.getProjectId = some k ∧ m = .task task.target := by
  obtain ⟨w, hw, hp, hrs, hts⟩ := trackTaskRelations_marks hconnected
    ht { marks with tasks := insertMark marks.tasks task.target r }
  obtain ⟨up, hu, hd⟩ := bind_eq_ok hw
  have hp : w.projects = marks.projects := hp
  have hs : (markTaskProject task w).tasks = w.tasks := by
    unfold markTaskProject
    split <;> rfl
  refine ⟨markTaskProject task w, ?_, fun h => hs ▸ hrs (h.insertMark _ _),
    fun h => ?_, fun k m => ?_, fun k m => ?_⟩
  · unfold markTaskAffected
    rw [if_neg hr]
    dsimp only
    rw [hu]
    change (trackTaskDependents config task up >>= _) = _
    rw [hd]
    rfl
  · rw [← hp] at h
    unfold markTaskProject
    split
    · exact h.insertMark _ _
    · exact h
  · rw [hs, hts, hasMark_insertMark, or_assoc]
  · unfold markTaskProject
    split
    · rename_i projectId hpr
      rw [hasMark_insertMark, hp]
      simp only [hpr, Option.some.injEq, eq_comm]
    · rename_i hn
      rw [hp]
      simp [hn]

lemma markProjectAffected_marks
    (hpr : project ∈ config.workspace.projects) (r : AffectedBy) (marks : AffectedMarks) :
    ∃ ms', markProjectAffected config project r marks = .ok ms' ∧
      (Reasoned marks.projects → Reasoned ms'.projects) ∧
      (∀ k m, HasMark ms'.projects k m ↔ HasMark marks.projects k m ∨
        (r ≠ .alreadyMarked ∧ k = project.id ∧ m = r ∨
          ProjectUpstream config project.id k m ∨ ProjectDownstream config project.id k m)) ∧
      ms'.tasks = marks.tasks := by
  obtain ⟨w, hw, ht, hr, hp⟩ := trackProjectRelations_marks hconnected
    hpr (if r = .alreadyMarked then marks
      else { marks with projects := insertMark marks.projects project.id r })
  refine ⟨w, hw, fun h => hr ?_, fun k m => ?_, ?_⟩
  · split
    · exact h
    · exact h.insertMark _ _
  · rw [hp]
    split
    · simp_all
    · rw [hasMark_insertMark, or_assoc]
      simp_all
  · rw [ht]
    split <;> rfl

end

variable {xs : List TrackedItem}

lemma Exact.cons (hexact : Exact config xs marks) {x : TrackedItem} {ms' : AffectedMarks}
    (ht : ∀ k m, HasMark ms'.tasks k m ↔ HasMark marks.tasks k m ∨ ItemTaskMark config k m x)
    (hp : ∀ k m, HasMark ms'.projects k m ↔ HasMark marks.projects k m ∨
      ItemProjectMark config k m x) (hrs : Reasoned marks.tasks → Reasoned ms'.tasks)
    (hr : Reasoned marks.projects → Reasoned ms'.projects) : Exact config (x :: xs) ms' where
  tasks k m := by
    rw [ht, hexact.tasks, or_comm]
    simp
  projects k m := by
    rw [hp, hexact.projects, or_comm]
    simp
  reasonedTasks := hrs hexact.reasonedTasks
  reasonedProjects := hr hexact.reasonedProjects

section

variable (hconnected : Connected config.workspace) (hknown : ∀ x ∈ xs, x.Known config)
  (hexact : Exact config xs marks)
include hconnected hknown hexact

lemma Exact.trackTask (hi : (TrackedItem.task task).Known config) :
    ∃ ms', trackItem config marks (.task task) = .ok ms' ∧ Exact config (.task task :: xs) ms' := by
  have ht := hi.1
  by_cases hd : directlyMarked marks.tasks task.target
  · obtain ⟨hm, reason, hre⟩ :=
      hexact.task_of_directlyMarked hconnected hknown ht hd
    obtain ⟨ms', hm', hp, hr, hts⟩ := trackTaskRelations_marks hconnected ht marks
    have hm' : markTaskAffected config task .alreadyMarked marks = .ok ms' := hm'
    have hf : isTaskAffected config marks task = .ok (some .alreadyMarked) := by
      rw [isTaskAffected_eq, if_pos hd]
    -- what the task adds to the marks of its walks is there already
    have ho : ∀ k m, ItemTaskMark config k m (.task task) → HasMark marks.tasks k m :=
      fun k m h => (hexact.tasks k m).mpr ⟨_, hm, h⟩
    have how : ∀ k m, ItemProjectMark config k m (.task task) →
        HasMark marks.projects k m := fun k m h => (hexact.projects k m).mpr ⟨_, hm, h⟩
    refine ⟨ms', ?_, hexact.cons (fun k m => ?_) (fun k m => ?_) hr (fun h => hp ▸ h)⟩
    · simp only [trackItem, affectTask, hf]
      change ((markTaskAffected config task .alreadyMarked marks >>= _) >>= _) = _
      rw [hm']
      rfl
    · rw [hts]
      exact ⟨fun h => h.imp_right (fun hrs => ⟨reason, hre, .inr hrs⟩),
        fun h => .inl (h.elim id (ho k m))⟩
    · rw [hp]
      exact ⟨.inl, fun h => h.elim id (how k m)⟩
  · obtain ⟨f, hf⟩ := hi.2
    have hc : isTaskAffected config marks task = .ok f := by
      rw [isTaskAffected_eq, if_neg hd, hf]
    cases f with
    | none =>
      refine ⟨marks, ?_, hexact.cons (fun k m => ?_) (fun k m => ?_) id id⟩
      · simp only [trackItem, affectTask, hc]
        rfl
      · simp [ItemTaskMark, hf]
      · simp [ItemProjectMark, hf]
    | some reason =>
      have hn : reason ≠ .alreadyMarked := by
        rintro rfl
        exact Bool.noConfusion (isDirect_of_isTaskAffected hf)
      obtain ⟨ms', hm', hr, hrsn, hts, hp⟩ := markTaskAffected_marks hconnected ht hn marks
      refine ⟨ms', ?_, hexact.cons (fun k m => ?_) (fun k m => ?_) hr hrsn⟩
      · simp only [trackItem, affectTask, hc]
        change ((markTaskAffected config task reason marks >>= _) >>= _) = _
        rw [hm']
        rfl
      · rw [hts]
        simp [ItemTaskMark, hf]
      · rw [hp]
        simp [ItemProjectMark, hf]

lemma Exact.trackProject (hpr : project ∈ config.workspace.projects) :
    ∃ ms', trackItem config marks (.project project) = .ok ms' ∧
      Exact config (.project project :: xs) ms' := by
  have hem : ({} : AffectedMarks).isProjectMarkedIgnoringRelations project = false := by
    simp [isProjectMarkedIgnoringRelations]
  by_cases hd : marks.isProjectMarkedIgnoringRelations project
  · obtain ⟨hm, reason, hre⟩ :=
      hexact.project_of_directlyMarked hconnected hknown hpr hd
    obtain ⟨ms', hm', hr, hp, ht⟩ := markProjectAffected_marks hconnected hpr .alreadyMarked marks
    have hf : isProjectAffected config marks project = some .alreadyMarked := if_pos hd
    have ho : ∀ k m, ItemProjectMark config k m (.project project) →
        HasMark marks.projects k m := fun k m h => (hexact.projects k m).mpr ⟨_, hm, h⟩
    refine ⟨ms', ?_, hexact.cons (fun k m => ?_) (fun k m => ?_) (fun h => ht ▸ h) hr⟩
    · simp only [trackItem, affectProject, hf]
      rw [hm']
      rfl
    · simp [ItemTaskMark, ht]
    · rw [hp]
      refine ⟨fun h => h.imp_right (fun hrs => ⟨reason, hre, .inr ?_⟩),
        fun h => .inl (h.elim id (ho k m))⟩
      exact hrs.resolve_left (fun hfl => hfl.1 rfl)
  · have hc : isProjectAffected config marks project = isProjectAffected config {} project := by
      unfold isProjectAffected
      rw [if_neg hd, hem]
      rfl
    cases hf : isProjectAffected config {} project with
    | none =>
      rw [hf] at hc
      refine ⟨marks, ?_, hexact.cons (fun k m => ?_) (fun k m => ?_) id id⟩
      · simp only [trackItem, affectProject, hc]
        rfl
      · simp [ItemTaskMark]
      · simp [ItemProjectMark, hf]
    | some reason =>
      rw [hf] at hc
      have hn : reason ≠ .alreadyMarked := by
        rintro rfl
        unfold isProjectAffected at hf
        rw [hem] at hf
        obtain ⟨f, _, heq⟩ := Option.map_eq_some_iff.mp hf
        cases heq
      obtain ⟨ms', hm', hr, hp, ht⟩ := markProjectAffected_marks hconnected hpr reason marks
      refine ⟨ms', ?_, hexact.cons (fun k m => ?_) (fun k m => ?_) (fun h => ht ▸ h) hr⟩
      · simp only [trackItem, affectProject, hc]
        rw [hm']
        rfl
      · simp [ItemTaskMark, ht]
      · rw [hp]
        simp [ItemProjectMark, hf, hn]

lemma Exact.trackItem {x : TrackedItem} (hi : x.Known config) :
    ∃ ms', trackItem config marks x = .ok ms' ∧ Exact config (x :: xs) ms' := by
  cases x with
  | project project => exact hexact.trackProject hconnected hknown hi
  | task task => exact hexact.trackTask hconnected hknown hi

end

lemma Exact.congr (hexact : Exact config xs marks) {xs' : List TrackedItem}
    (h : ∀ x, x ∈ xs ↔ x ∈ xs') : Exact config xs' marks where
  tasks k m := by
    rw [hexact.tasks]
    simp only [h]
  projects k m := by
    rw [hexact.projects]
    simp only [h]
  reasonedTasks := hexact.reasonedTasks
  reasonedProjects := hexact.reasonedProjects

lemma Exact.trackItems (hconnected : Connected config.workspace) (hknown : ∀ x ∈ xs, x.Known config)
    (hexact : Exact config xs marks) {next : List TrackedItem} (hn : ∀ x ∈ next, x.Known config) :
    ∃ ms', next.foldlM (Proofs.trackItem config) marks = .ok ms' ∧
      Exact config (xs ++ next) ms' := by
  induction next generalizing xs marks with
  | nil => exact ⟨marks, rfl, by rwa [append_nil]⟩
  | cons x next ih =>
    have hi := hn x mem_cons_self
    obtain ⟨marked, hm, hexact⟩ := hexact.trackItem hconnected hknown hi
    have ha : ∀ o ∈ x :: xs, o.Known config := by
      intro o ho
      rcases mem_cons.mp ho with rfl | hol
      · exact hi
      · exact hknown o hol
    obtain ⟨ms', hm', hexact⟩ := ih ha hexact (fun o ho => hn o (mem_cons_of_mem _ ho))
    refine ⟨ms', ?_, hexact.congr (fun o => ?_)⟩
    · rw [foldlM_cons, hm]
      exact hm'
    · simp [or_left_comm]

end

section

open AffectedMarks

variable {config : AffectedTrackerConfig} {marks : AffectedMarks}

/-- What the call checks, in order. -/
def trackedItems (config : AffectedTrackerConfig) : TrackCall → List TrackedItem
  | .projects => config.workspace.projects.map .project
  | .tasks => config.workspace.tasks.map .task
  | .tasksByInstance listed => listed.map .task
  | .tasksByTarget targets =>
    targets.filterMap (fun target => (config.workspace.getTask target).toOption.map .task)

def Resolves (config : AffectedTrackerConfig) : TrackCall → Prop
  | .tasksByTarget targets => ∀ target ∈ targets, ∃ task, config.workspace.getTask target = .ok task
  | _ => True

lemma match_eq_foldlM {f : Except String (Option AffectedMarks)}
    {track : AffectedMarks → Except String AffectedMarks} {xs : List TrackedItem}
    (ht : ∀ marks, track marks = xs.foldlM (trackItem config) marks) (marks : AffectedMarks) :
    (f >>= fun f => match f with
      | some marked => track marked
      | none => track marks) =
      (f >>= fun f => pure (f.getD marks)) >>= fun marks =>
        xs.foldlM (trackItem config) marks := by
  cases f with
  | error e => rfl
  | ok f =>
    cases f with
    | none => exact ht marks
    | some marked => exact ht marked

lemma trackTasksByInstance_eq (tasks : List Task) (marks : AffectedMarks) :
    trackTasksByInstance config marks tasks =
      (tasks.map TrackedItem.task).foldlM (trackItem config) marks := by
  induction tasks generalizing marks with
  | nil => rfl
  | cons task tasks ih => exact match_eq_foldlM ih marks

lemma trackEachProject_eq (projects : List Project) (marks : AffectedMarks) :
    trackEachProject config marks projects =
      (projects.map TrackedItem.project).foldlM (trackItem config) marks := by
  induction projects generalizing marks with
  | nil => rfl
  | cons project projects ih => exact match_eq_foldlM ih marks

lemma mapM_orError_all {K N : Type} {key : N → K} {l : K → Except WorkspaceError N}
    {all : List N} (hl : ∀ x ∈ all, l (key x) = .ok x) :
    (all.map key).mapM (fun k => orError (l k)) = .ok all := by
  rw [mapM_map, mapM_eq_ok_map (g := id), map_id]
  intro x hi
  rw [Function.comp_apply, hl x hi]
  rfl

section

variable (hconnected : Connected config.workspace)
include hconnected

lemma mapM_getProject_all : (config.workspace.projects.map (·.id)).mapM
      (fun id => orError (config.workspace.getProject id)) = .ok config.workspace.projects :=
  mapM_orError_all hconnected.project

lemma mapM_getTask_all : (config.workspace.tasks.map (·.target)).mapM
      (fun t => orError (config.workspace.getTask t)) = .ok config.workspace.tasks :=
  mapM_orError_all hconnected.task

lemma run_eq_foldlM {c : TrackCall} (hr : Resolves config c) (marks : AffectedMarks) :
    c.run config marks = (trackedItems config c).foldlM (trackItem config) marks := by
  cases c with
  | projects =>
    simp only [run, trackProjects, mapM_getProject_all hconnected]
    exact trackEachProject_eq _ marks
  | tasks =>
    simp only [run, trackTasks, mapM_getTask_all hconnected]
    exact trackTasksByInstance_eq _ marks
  | tasksByInstance l => exact trackTasksByInstance_eq l marks
  | tasksByTarget ts =>
    change trackTasksByTarget config marks ts = _
    induction ts generalizing marks with
    | nil => rfl
    | cons t ts ih =>
      obtain ⟨task, ht⟩ := hr t mem_cons_self
      have hrs := fun marks =>
        ih marks (fun o ho => hr o (mem_cons_of_mem _ ho))
      have hi : trackedItems config (.tasksByTarget (t :: ts)) =
          .task task :: trackedItems config (.tasksByTarget ts) := by
        simp [trackedItems, ht, Except.toOption]
      rw [hi]
      unfold trackTasksByTarget
      rw [ht]
      exact match_eq_foldlM hrs marks

lemma Exact.runCalls {cs : List TrackCall} {d : List TrackedItem} {marks : AffectedMarks}
    (hr : ∀ c ∈ cs, Resolves config c)
    (hknown : ∀ c ∈ cs, ∀ x ∈ trackedItems config c, x.Known config)
    (hd : ∀ x ∈ d, x.Known config) (hexact : Exact config d marks) :
    ∃ ms', cs.foldlM (run config) marks = .ok ms' ∧
      Exact config (d ++ cs.flatMap (trackedItems config)) ms' := by
  induction cs generalizing d marks with
  | nil => exact ⟨marks, rfl, by rwa [flatMap_nil, append_nil]⟩
  | cons c cs ih =>
    have hi := hknown c mem_cons_self
    obtain ⟨marked, hm, hexact⟩ := hexact.trackItems hconnected hd hi
    have ha : ∀ x ∈ d ++ trackedItems config c, x.Known config :=
      fun x hite => (mem_append.mp hite).elim (hd x) (hi x)
    obtain ⟨ms', hm', hexact⟩ := ih (fun o ho => hr o (mem_cons_of_mem _ ho))
      (fun o ho => hknown o (mem_cons_of_mem _ ho)) ha hexact
    refine ⟨ms', ?_, by rwa [flatMap_cons, ← append_assoc]⟩
    rw [foldlM_cons, run_eq_foldlM hconnected (hr c mem_cons_self), hm]
    exact hm'

end

/-- After any calls on a new tracker, a task or project is marked for exactly these reasons: it is
affected on its own and was tracked, or it is a relation within the scopes of one that is. A project
is also marked for a task of it. The order of the calls has no part in it, nor have repetitions. -/
theorem tracked_marks_exact (config : AffectedTrackerConfig)
    (hconnected : Connected config.workspace) (calls : List TrackCall)
    (hresolves : ∀ call ∈ calls, Resolves config call)
    (hknown : ∀ call ∈ calls, ∀ item ∈ trackedItems config call, item.Known config) :
    ∃ marks, calls.foldlM (TrackCall.run config) {} = .ok marks ∧
      Exact config (calls.flatMap (trackedItems config)) marks :=
  exact_nil.runCalls hconnected hresolves hknown (by simp)

def bundleTask : Task :=
  { target := Target.new "app" "bundle", deps := [{ target := Target.new "lib" "types" }] }

def typesTask : Task := { target := Target.new "lib" "types" }

def bundleWorkspace : WorkspaceGraph :=
  { projects := [{ id := "app", dependencies := [{ id := "lib" }] }, { id := "lib" }]
    tasks := [bundleTask, typesTask]
    projectDependents := fun id => if id = "lib" then ["app"] else []
    taskDependents := fun target =>
      if target = typesTask.target then [bundleTask.target] else [] }

def bundleConfig : AffectedTrackerConfig :=
  { workspace := bundleWorkspace
    projectDownstream := .deep
    taskDownstream := .deep
    changedInput := fun task =>
      .ok (if task.target = bundleTask.target then some (.file ⟨["shared.json"]⟩) else none) }

lemma connected_bundleWorkspace : Connected bundleWorkspace where
  project := by decide
  dependency := by decide
  dependent := by decide
  task := by decide
  taskDependency := by decide
  taskDependent := by decide

theorem bundle_marks_exact :
    ∃ marks, [TrackCall.projects, .tasks, .tasksByTarget [bundleTask.target]].foldlM
        (TrackCall.run bundleConfig) {} = .ok marks ∧
      Exact bundleConfig ([TrackCall.projects, .tasks,
        .tasksByTarget [bundleTask.target]].flatMap (trackedItems bundleConfig)) marks := by
  have hc : ∀ task ∈ bundleWorkspace.tasks, ∃ f, isTaskAffected bundleConfig {} task = .ok f := by
    simp only [bundleWorkspace, mem_cons, not_mem_nil, or_false, forall_eq_or_imp, forall_eq]
    exact ⟨⟨_, rfl⟩, ⟨_, rfl⟩⟩
  have hts : ∀ task ∈ bundleWorkspace.tasks, (TrackedItem.task task).Known bundleConfig :=
    fun task ht => ⟨ht, hc task ht⟩
  have hp : ∀ x ∈ trackedItems bundleConfig .projects, x.Known bundleConfig :=
    forall_mem_map.mpr (fun _ hpr => hpr)
  apply tracked_marks_exact bundleConfig connected_bundleWorkspace
  · simp only [mem_cons, not_mem_nil, or_false, forall_eq_or_imp, forall_eq, Resolves, true_and]
    exact ⟨bundleTask, by decide⟩
  · simp only [mem_cons, not_mem_nil, or_false, forall_eq_or_imp, forall_eq]
    refine ⟨hp, forall_mem_map.mpr hts, ?_⟩
    exact forall_mem_singleton.mpr (hts bundleTask (by decide))

/-- The project of `app:bundle` is marked for it, although no project is affected on its own,
and the dependencies of that project are not. -/
theorem bundle_marks_its_project :
    (∀ project ∈ bundleWorkspace.projects, isProjectAffected bundleConfig {} project = none) ∧
      ∃ marks, [TrackCall.projects, .tasks].foldlM (TrackCall.run bundleConfig) {} = .ok marks ∧
        HasMark marks.projects "app" (.task bundleTask.target) ∧
        marks.projects.lookup "lib" = none := by
  refine ⟨by decide, _, rfl, ?_, by decide⟩
  unfold HasMark
  decide

end

end Moon.Proofs
