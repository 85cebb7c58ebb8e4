import Moon.Lib.First
import Moon.Proofs.QueryNegation

/-! # Project queries and task queries -/

namespace Moon.Proofs

open Lib List QueryGraph ComparisonOperator

variable {e : GlobEngine} {vs : List String} {p : Id → Prop}

/-- Ids and targets are unique, and projects own their tasks. -/
structure TargetsLinked (graph : QueryGraph) : Prop where
  ids : (graph.projects.map (·.id)).Nodup
  targets : (graph.tasks.map (·.target)).Nodup
  owned : ∀ project ∈ graph.projects, ∀ target ∈ project.taskTargets,
    ∃ task ∈ graph.tasks, task.target = target ∧ target = Target.new project.id task.id

structure Owns (graph : QueryGraph) (project : QueryProject) (task : QueryTask) : Prop where
  projectKnown : project ∈ graph.projects
  taskKnown : task ∈ graph.tasks
  target : task.target ∈ project.taskTargets

def Expanded (graph : QueryGraph) (project : QueryProject) : Prop :=
  ∀ target ∈ project.taskTargets, graph.expandError target = none

section

variable {graph : QueryGraph} (hlinked : TargetsLinked graph) {project : QueryProject}
  {task : QueryTask}

include hlinked

lemma target_of_owns (h : Owns graph project task) :
    task.target = Target.new project.id task.id := by
  obtain ⟨o, ho, ht, hn⟩ := hlinked.owned project h.projectKnown task.target h.target
  have hs : o = task := inj_on_of_nodup_map hlinked.targets ho h.taskKnown ht
  rwa [hs] at hn

lemma getProject_of_mem (h : project ∈ graph.projects) :
    graph.getProjectUnexpanded project.id = .ok project := by
  unfold getProjectUnexpanded
  rw [find?_eq_some_of_key hlinked.ids h (fun o => by simp)]

lemma getTask_eq (h : task ∈ graph.tasks) :
    graph.getTask task.target =
      match graph.expandError task.target with
      | some error => .error error
      | none => .ok task := by
  have hf : graph.tasks.find? (fun other => other.target = task.target) = some task :=
    find?_eq_some_of_key hlinked.targets h (fun o => by simp)
  cases her : graph.expandError task.target <;> simp only [getTask, hf, her]

lemma getMany_iff (hpr : project ∈ graph.projects) {p : QueryTask → Bool} :
    (do let tasks ← graph.getManyTasks project.taskTargets; return tasks.any p :
      Except String Bool) = .ok true ↔
      Expanded graph project ∧ ∃ task, Owns graph project task ∧ p task := by
  constructor
  · intro h
    obtain ⟨tasks, hts, han⟩ := bind_eq_ok h
    have hf : ∀ t ∈ project.taskTargets, ∃ task ∈ graph.tasks, task.target = t ∧
        graph.expandError t = none ∧ task ∈ tasks := by
      intro t ht
      obtain ⟨task, htsk, rfl, -⟩ := hlinked.owned project hpr t ht
      obtain ⟨f, hok, hm⟩ := mapM_eq_ok_mem hts ht
      rw [getTask_eq hlinked htsk] at hok
      cases her : graph.expandError task.target with
      | some error =>
        rw [her] at hok
        cases hok
      | none =>
        rw [her] at hok
        cases hok
        exact ⟨task, htsk, rfl, rfl, hm⟩
    refine ⟨fun t ht => (hf t ht).choose_spec.2.2.1, ?_⟩
    obtain ⟨task, htsk, hp⟩ := any_eq_true.mp (Except.ok.inj han)
    obtain ⟨t, ht, hok⟩ := mem_of_mapM_eq_ok hts htsk
    obtain ⟨o, ho, rfl, hex, -⟩ := hf t ht
    rw [getTask_eq hlinked ho, hex] at hok
    cases hok
    exact ⟨task, ⟨hpr, ho, ht⟩, hp⟩
  · rintro ⟨hexp, task, how, hp⟩
    have ha : ∀ t ∈ project.taskTargets, ∃ task, graph.getTask t = .ok task := by
      intro t ht
      obtain ⟨o, ho, rfl, -⟩ := hlinked.owned project hpr t ht
      exact ⟨o, by rw [getTask_eq hlinked ho, hexp _ ht]⟩
    cases hts : graph.getManyTasks project.taskTargets with
    | error error =>
      obtain ⟨t, ht, her⟩ := exists_of_mapM_eq_error hts
      obtain ⟨f, hf⟩ := ha t ht
      rw [hf] at her
      cases her
    | ok tasks =>
      obtain ⟨f, hf, hm⟩ := mapM_eq_ok_mem hts how.target
      rw [getTask_eq hlinked how.taskKnown, hexp _ how.target] at hf
      cases hf
      exact congrArg Except.ok (any_eq_true.mpr ⟨task, hm, hp⟩)

end

section

variable (graph : QueryGraph) (op : ComparisonOperator)

def ProjectField : Field → Prop
  | .task _ | .taskTag _ | .taskToolchain _ | .taskType _ => False
  | _ => True

/-- What the field asks of a project. -/
def ProjectNamed (project : QueryProject) : Field → Prop
  | .language vs => project.language ∈ vs
  | .project vs =>
    ∃ name ∈ project.id :: project.aliases, Names graph.engine op vs name
  | .projectAlias vs => ∃ name ∈ project.aliases, Names graph.engine op vs name
  | .projectId vs => Names graph.engine op vs project.id
  | .projectLayer vs => project.layer ∈ vs
  | .projectSource vs => Names graph.engine op vs project.source
  | .projectStack vs => project.stack ∈ vs
  | .projectTag vs => ∃ tag ∈ project.tags, Names graph.engine op vs tag
  | _ => False

def TaskNamed (task : QueryTask) : Field → Prop
  | .task vs => Names graph.engine op vs task.id
  | .taskTag vs => ∃ tag ∈ task.tags, Names graph.engine op vs tag
  | .taskToolchain vs => ∃ id ∈ task.toolchains, Names graph.engine op vs id
  | .taskType types => task.typeOf ∈ types
  | _ => False

variable {graph op}

lemma testList_iff (ho : op = .equal ∨ op = .like) {ns : List String} :
    op.testList e vs ns = .ok true ↔ ∃ n ∈ ns, Names e op vs n := by
  obtain ⟨-, p, hp⟩ | ⟨-, hnm, error, her⟩ := test_cases e op vs ho
  · rw [testList_eq_any (fun n => (hp n).1), Except.ok.injEq, any_eq_true]
    simp only [(hp _).2.2]
  · refine iff_of_false ?_ (fun ⟨n, _, hnd⟩ => hnm n hnd)
    by_cases hn : ns = []
    · subst hn
      simp [testList]
    · rw [testList_eq_error (fun n => (her n).1) hn]
      simp

lemma test_iff (ho : op = .equal ∨ op = .like) {n : String} :
    op.test e vs n = .ok true ↔ Names e op vs n := by
  rw [← testList_singleton, testList_iff ho]
  simp

lemma unwrapOrDefault_iff {r : Except String Bool} : unwrapOrDefault r ↔ r = .ok true := by
  cases r with
  | error error => simp [unwrapOrDefault]
  | ok v => simp [unwrapOrDefault]

lemma projectField_iff {f : Field} (hf : ProjectField f) (ho : Positive f op)
    (project : QueryProject) :
    graph.projectFieldMatches project f op = .ok true ↔ ProjectNamed graph op project f := by
  have ho' : op = .equal ∨ op = .like := ho.imp id And.left
  cases f with
  | language vs | projectLayer vs | projectStack vs =>
    obtain rfl | ⟨-, hfl⟩ := ho
    · simp [projectFieldMatches, testEnum, ProjectNamed]
    · cases hfl
  | projectId vs => exact test_iff ho'
  | projectSource vs => exact test_iff ho'
  | project vs =>
    simp only [projectFieldMatches, test_or_testList]
    exact testList_iff ho'
  | projectAlias vs =>
    rw [projectAliasMatches_eq]
    exact testList_iff ho'
  | projectTag vs => exact testList_iff ho'
  | task | taskTag | taskToolchain | taskType => cases hf

lemma taskField_iff {f : Field} (hf : ¬ ProjectField f) (ho : Positive f op) (task : QueryTask) :
    graph.taskFieldMatches task f op = .ok true ↔ TaskNamed graph op task f := by
  have ho' : op = .equal ∨ op = .like := ho.imp id And.left
  cases f with
  | task vs => exact test_iff ho'
  | taskTag vs => exact testList_iff ho'
  | taskToolchain vs => exact testList_iff ho'
  | taskType types =>
    obtain rfl | ⟨-, hfl⟩ := ho
    · simp [taskFieldMatches, testEnum, TaskNamed]
    · cases hfl
  | language | project | projectAlias | projectId | projectLayer | projectSource | projectStack
  | projectTag => exact absurd trivial hf

end

section

variable (graph : QueryGraph) (op : ComparisonOperator)

/-- When the project and task evaluators agree on the field. -/
def TaskFieldAgrees (project : QueryProject) (field : Field) : Prop :=
  match field with
  | .taskTag _ | .taskType _ =>
    (∃ task, Owns graph project task ∧ TaskNamed graph op task field) → Expanded graph project
  | .taskToolchain vs =>
    ((∃ task, Owns graph project task ∧ TaskNamed graph op task field) → Expanded graph project) ∧
      (Expanded graph project → ∀ task, Owns graph project task → ∀ id ∈ task.toolchains,
        Names graph.engine op vs (stableId id) ∨ Names graph.engine op vs (unstableId id) →
            ∃ other, Owns graph project other ∧ TaskNamed graph op other field)
  | _ => True

lemma exists_stableAndUnstable {ids : List Id} :
    (∃ n ∈ ids.flatMap stableAndUnstable, p n) ↔
      ∃ id ∈ ids, p (stableId id) ∨ p (unstableId id) := by
  simp only [mem_flatMap, stableAndUnstable, mem_cons, not_mem_nil, or_false]
  constructor
  · rintro ⟨n, ⟨id, hi, rfl | rfl⟩, hp⟩
    · exact ⟨id, hi, .inl hp⟩
    · exact ⟨id, hi, .inr hp⟩
  · rintro ⟨id, hi, hp | hp⟩
    · exact ⟨stableId id, ⟨id, hi, .inl rfl⟩, hp⟩
    · exact ⟨unstableId id, ⟨id, hi, .inr rfl⟩, hp⟩

lemma stable_or_unstable {id : Id} (h : p id) : p (stableId id) ∨ p (unstableId id) := by
  unfold stableId unstableId
  split
  · exact .inr h
  · exact .inl h

variable {graph op} (hlinked : TargetsLinked graph) {project : QueryProject} {f : Field}

include hlinked

lemma taskMatches_projectField {task : QueryTask} (ho : Owns graph project task)
    (hf : ProjectField f) (hop : Positive f op) :
    graph.taskFieldMatches task f op = .ok true ↔
      (∃ vs, f = .project vs) ∧ ProjectNamed graph op project f := by
  cases f with
  | project vs =>
    have hi : task.target.getProjectId = some project.id := by
      rw [target_of_owns hlinked ho]
      rfl
    have hs : graph.taskFieldMatches task (.project vs) op =
        graph.projectFieldMatches project (.project vs) op := by
      simp only [taskFieldMatches, projectFieldMatches,
        getTaskParentProject, hi, getProject_of_mem hlinked ho.projectKnown]
      cases op.test graph.engine vs project.id with
      | error error => rfl
      | ok pa => cases pa <;> rfl
    rw [hs, projectField_iff hf hop project]
    exact ⟨fun h => ⟨⟨vs, rfl⟩, h⟩, fun h => h.2⟩
  | language | projectAlias | projectId | projectLayer | projectSource | projectStack
  | projectTag =>
    refine iff_of_false ?_ ?_
    · simp [taskFieldMatches]
    · rintro ⟨⟨vs, hv⟩, -⟩
      cases hv
  | task | taskTag | taskToolchain | taskType => cases hf

lemma projectMatches_taskField (hp : project ∈ graph.projects)
    (hfl : ¬ ProjectField f) (hop : Positive f op) :
    (graph.projectFieldMatches project f op = .ok true ↔
      ∃ task, Owns graph project task ∧ TaskNamed graph op task f) ↔
        TaskFieldAgrees graph op project f := by
  have ho' : op = .equal ∨ op = .like := hop.imp id And.left
  cases f with
  | task vs =>
    refine iff_of_true ?_ trivial
    simp only [projectFieldMatches, Except.ok.injEq, any_eq_true]
    constructor
    · rintro ⟨t, ht, hts⟩
      obtain ⟨task, htsk, rfl, hnw⟩ := hlinked.owned project hp t ht
      rw [hnw] at hts
      exact ⟨task, ⟨hp, htsk, ht⟩, (test_iff ho').mp (unwrapOrDefault_iff.mp hts)⟩
    · rintro ⟨task, ho, hn⟩
      refine ⟨task.target, ho.target, ?_⟩
      rw [target_of_owns hlinked ho]
      exact unwrapOrDefault_iff.mpr ((test_iff ho').mpr hn)
  | taskTag vs =>
    simp only [projectFieldMatches, getMany_iff hlinked hp, unwrapOrDefault_iff,
      testList_iff ho', TaskFieldAgrees, TaskNamed]
    exact ⟨fun h hn => (h.mpr hn).1, fun h => ⟨And.right, fun hn => ⟨h hn, hn⟩⟩⟩
  | taskToolchain vs =>
    simp only [projectFieldMatches, getMany_iff hlinked hp, unwrapOrDefault_iff,
      testList_iff ho', exists_stableAndUnstable, TaskFieldAgrees, TaskNamed]
    constructor
    · intro h
      refine ⟨fun hn => (h.mpr hn).1, fun hex task ho id hi hf => ?_⟩
      exact h.mp ⟨hex, task, ho, id, hi, hf⟩
    · rintro ⟨hex, hf⟩
      constructor
      · rintro ⟨hex, task, ho, id, hi, hfr⟩
        exact hf hex task ho id hi hfr
      · rintro ⟨task, ho, id, hi, hn⟩
        exact ⟨hex ⟨task, ho, id, hi, hn⟩, task, ho, id, hi, stable_or_unstable hn⟩
  | taskType types =>
    obtain rfl | ⟨-, hfls⟩ := hop
    · simp only [projectFieldMatches, getMany_iff hlinked hp,
        testEnum, contains_iff_mem, TaskFieldAgrees, TaskNamed]
      exact ⟨fun h hn => (h.mpr hn).1, fun h => ⟨And.right, fun hn => ⟨h hn, hn⟩⟩⟩
    · cases hfls
  | language | project | projectAlias | projectId | projectLayer | projectSource | projectStack
  | projectTag => exact absurd trivial hfl

/-- A task matches a project field as its project does if the field is `project`, or if neither
does; a project matches a task field as its tasks do up to the forms of a toolchain. -/
theorem queries_agree_iff :
    (∀ project task field op, Owns graph project task → ProjectField field → Positive field op →
      ((graph.doesTaskMatchCriteria task (comparisonQuery field op) = .ok true ↔
          graph.doesProjectMatchCriteria project (comparisonQuery field op) = .ok true) ↔
        (∃ values, field = .project values) ∨ ¬ ProjectNamed graph op project field)) ∧
    (∀ project ∈ graph.projects, ∀ field op, ¬ ProjectField field → Positive field op →
      ((graph.doesProjectMatchCriteria project (comparisonQuery field op) = .ok true ↔
          ∃ task, Owns graph project task ∧
            graph.doesTaskMatchCriteria task (comparisonQuery field op) = .ok true) ↔
        TaskFieldAgrees graph op project field)) := by
  constructor
  · intro project task field op how hf ho
    simp only [doesTaskMatchCriteria, doesProjectMatchCriteria,
      comparisonQuery, evaluateAll_comparison]
    rw [taskMatches_projectField hlinked how hf ho, projectField_iff hf ho project]
    by_cases hn : ProjectNamed graph op project field <;> simp [hn]
  · intro project hp field op hf ho
    simp only [doesTaskMatchCriteria, doesProjectMatchCriteria,
      comparisonQuery, evaluateAll_comparison, taskField_iff hf ho]
    exact projectMatches_taskField hlinked hp hf ho

end

def lintProject : QueryProject :=
  { id := "web", source := "web", language := .rust
    taskTargets := [Target.new "web" "lint"] }

def lintTask : QueryTask :=
  { id := "lint", target := Target.new "web" "lint", toolchains := ["unstable_python"] }

def lintGraph : QueryGraph where
  engine := literalGlobs
  projects := [lintProject]
  tasks := [lintTask]

lemma lintGraph_linked : TargetsLinked lintGraph where
  ids := by decide
  targets := by decide
  owned project hp target ht := by
    cases mem_singleton.mp hp
    cases mem_singleton.mp ht
    exact ⟨lintTask, mem_singleton_self _, rfl, rfl⟩

lemma lintProject_owns : Owns lintGraph lintProject lintTask :=
  ⟨mem_singleton_self _, mem_singleton_self _, mem_singleton_self _⟩

theorem lint_queries_agree :
    (lintGraph.doesTaskMatchCriteria lintTask (comparisonQuery (.project ["web"]) .equal) =
        .ok true ↔
      lintGraph.doesProjectMatchCriteria lintProject
        (comparisonQuery (.project ["web"]) .equal) = .ok true) ∧
    (lintGraph.doesProjectMatchCriteria lintProject
        (comparisonQuery (.taskToolchain ["unstable_python"]) .equal) = .ok true ↔
      ∃ task, Owns lintGraph lintProject task ∧ lintGraph.doesTaskMatchCriteria task
        (comparisonQuery (.taskToolchain ["unstable_python"]) .equal) = .ok true) := by
  obtain ⟨hproject, htask⟩ := queries_agree_iff lintGraph_linked
  constructor
  · exact (hproject _ _ (.project ["web"]) .equal lintProject_owns trivial (.inl rfl)).mpr
      (.inl ⟨["web"], rfl⟩)
  · refine (htask lintProject (mem_singleton_self _) (.taskToolchain ["unstable_python"]) .equal
      (fun h => h) (.inl rfl)).mpr ⟨fun _ _ _ => rfl, fun _ _ _ _ _ _ => ?_⟩
    exact ⟨lintTask, lintProject_owns, "unstable_python", mem_cons_self, mem_cons_self⟩

/-- The language of a project is not known to its tasks, nor the stable id of a toolchain. -/
theorem lint_queries_disagree : (lintGraph.doesProjectMatchCriteria lintProject
        (comparisonQuery (.language [.rust]) .equal) = .ok true ∧
      lintGraph.doesTaskMatchCriteria lintTask
        (comparisonQuery (.language [.rust]) .equal) = .ok false) ∧
    (lintGraph.doesProjectMatchCriteria lintProject
        (comparisonQuery (.taskToolchain ["python"]) .equal) = .ok true ∧
      lintGraph.doesTaskMatchCriteria lintTask
        (comparisonQuery (.taskToolchain ["python"]) .equal) = .ok false) :=
  ⟨⟨rfl, rfl⟩, ⟨rfl, rfl⟩⟩

end Moon.Proofs
