import Moon.Proofs.ProjectBuilder
import Moon.Proofs.PooledTasks
import Moon.Proofs.ProjectLoader
import Moon.Proofs.ProjectPartitions

/-! # The project graphs of a workspace -/

namespace Moon.Proofs

open Moon.Lib WorkspaceBuilder List WorkspaceBuilderAsync

variable {b : BuiltProject}

section

variable {al : String → Option Id} {state : ProjectsState}
  {os : List BuiltProject}

variable (al) in
def resolvedProject (built : BuiltProject) : BuiltProject :=
  { built with
    project := { built.project with
      dependencies := built.project.dependencies.map (fun dep =>
        { dep with id := resolveId al dep.id }) } }

variable (al state) in
lemma getOrInsertNode_frame (n : String) :
    (getOrInsertNode al state n).edges = state.edges ∧
      (getOrInsertNode al state n).projects = state.projects ∧
      state.nodes ⊆ (getOrInsertNode al state n).nodes := by
  unfold getOrInsertNode
  split
  · exact ⟨rfl, rfl, List.Subset.refl _⟩
  · exact ⟨rfl, rfl, subset_append_left _ _⟩

def edgeEnds (edge : ProjectEdge) : Id × Id × DependencyScope :=
  (edge.source, edge.target, edge.scope)

def IsCycleMessage (message : String) : Prop :=
  ∃ source target, message = (ProjectGraphError.wouldCycle source target).message

lemma wouldCycleInScope_eq (es : List ProjectEdge) (s t : Id)
    (sc : DependencyScope) : wouldCycleInScope es s t sc =
      reaches (partitionEdges sc.isProductionGroup (es.map edgeEnds)) t s := by
  simp [wouldCycleInScope, partitionEdges, filter_map, Function.comp_def, edgeEnds]

def dependencyEdges (source : Id) (deps : List ProjectDependencyConfig) : List ProjectEdge :=
  (deps.filter (fun dep => dep.scope ≠ .root)).map (fun dep => ⟨source, dep.id, dep.scope⟩)

structure LinkedDeps (source : Id) (start : ProjectsState) (deps : List ProjectDependencyConfig)
    (state : ProjectsState) : Prop where
  edges : state.edges = start.edges ++ dependencyEdges source deps
  projects : state.projects = start.projects
  nodes : start.nodes ⊆ state.nodes

lemma linkDependency_accepts {id : Id} {a : ProjectsState} {d : List ProjectDependencyConfig}
    (hl : LinkedDeps (resolveId al id) a d state)
    (ha : PartitionsAcyclic ((a.edges ++ dependencyEdges (resolveId al id) d).map edgeEnds))
    (dep : ProjectDependencyConfig) :
    Accepts (LinkedDeps (resolveId al id) a (d ++ [dep])) IsCycleMessage
      ((a.edges ++ dependencyEdges (resolveId al id) (d ++ [dep])).map edgeEnds)
      (linkDependency al id state dep) := by
  obtain ⟨hes, hp, hnd⟩ := getOrInsertNode_frame al state dep.id
  unfold linkDependency
  by_cases hr : dep.scope = .root
  · have hs : dependencyEdges (resolveId al id) (d ++ [dep]) =
        dependencyEdges (resolveId al id) d := by
      simp [dependencyEdges, filter_append, hr]
    rw [if_pos hr]
    exact ⟨⟨hs ▸ hl.edges, hl.projects, hl.nodes⟩, hs ▸ ha⟩
  · have hm : a.edges ++ dependencyEdges (resolveId al id) (d ++ [dep]) =
        state.edges ++ [⟨resolveId al id, dep.id, dep.scope⟩] := by
      simp [dependencyEdges, filter_append, hr, hl.edges]
    rw [← hl.edges] at ha
    have hn := partitionsAcyclic_append_singleton ha (edgeEnds ⟨resolveId al id, dep.id, dep.scope⟩)
    rw [if_neg hr, hm, map_append, map_singleton]
    dsimp only
    rw [hes, wouldCycleInScope_eq]
    split
    · next hb =>
      exact ⟨⟨_, _, rfl⟩, fun hal => Bool.false_ne_true ((hn.mp hal).symm.trans hb)⟩
    · next hb =>
      exact ⟨⟨hm.symm, hp.trans hl.projects,
        List.Subset.trans hl.nodes hnd⟩, hn.mpr (Bool.not_eq_true _ ▸ hb)⟩

variable (al) in
/-- The edges that adding the project links. -/
def linkedEdges (built : BuiltProject) : List ProjectEdge :=
  dependencyEdges (resolveId al built.project.id) (resolvedProject al built).project.dependencies

variable (al) in
structure AddedProjects (outputs : List BuiltProject) (state : ProjectsState) : Prop where
  edges : state.edges = outputs.flatMap (linkedEdges al)
  projects : state.projects = outputs.map (resolvedProject al)
  nodes : ∀ built ∈ outputs, built.project.id ∈ state.nodes

lemma insertOrUpdateNode_nodes (b : BuiltProject) (state : ProjectsState) :
    state.nodes ⊆ (insertOrUpdateNode state b).nodes ∧
      b.project.id ∈ (insertOrUpdateNode state b).nodes := by
  unfold insertOrUpdateNode
  dsimp only
  split
  · exact ⟨List.Subset.refl _, by assumption⟩
  · exact ⟨subset_append_left _ _, mem_append_right _ mem_cons_self⟩

lemma addProject_accepts (ha : AddedProjects al os state)
    (hac : PartitionsAcyclic ((os.flatMap (linkedEdges al)).map edgeEnds)) (b : BuiltProject) :
    Accepts (AddedProjects al (os ++ [b])) IsCycleMessage
      (((os ++ [b]).flatMap (linkedEdges al)).map edgeEnds)
      (addProject al state b) := by
  obtain ⟨hes, hp, hn⟩ := getOrInsertNode_frame al state b.project.id
  let a := getOrInsertNode al state b.project.id
  let s := resolveId al b.project.id
  have hm : (os ++ [b]).flatMap (linkedEdges al) = a.edges ++ linkedEdges al b := by
    simp [a, hes, ha.edges]
  have hd := foldlM_accepts (LinkedDeps s a)
    (fun deps => (a.edges ++ dependencyEdges s deps).map edgeEnds)
    (fun d deps => by simp [dependencyEdges, filter_append])
    (fun _ _ dep hl hac => linkDependency_accepts hl hac dep)
    ⟨by simp [dependencyEdges], rfl, List.Subset.refl _⟩
    (by simpa [dependencyEdges, a, hes, ha.edges] using hac)
    (resolvedProject al b).project.dependencies
  have hadd : addProject al state b = (resolvedProject al b).project.dependencies.foldlM
        (linkDependency al b.project.id) a >>= fun l =>
          .ok (insertOrUpdateNode l (resolvedProject al b)) := rfl
  rw [hadd, hm]
  cases hr : (resolvedProject al b).project.dependencies.foldlM
      (linkDependency al b.project.id) a with
  | error message =>
    rw [hr] at hd
    exact hd
  | ok l =>
    rw [hr] at hd
    have hi := insertOrUpdateNode_nodes (resolvedProject al b) l
    refine ⟨⟨hd.1.edges.trans hm.symm, ?_, ?_⟩, hd.2⟩
    · rw [map_append, map_singleton, ← ha.projects, ← hp]
      exact congrArg (· ++ [resolvedProject al b]) hd.1.projects
    · have hk := List.Subset.trans (List.Subset.trans hn hd.1.nodes) hi.1
      exact forall_mem_append.mpr ⟨fun o ho => hk (ha.nodes o ho), forall_mem_singleton.mpr hi.2⟩

variable (al) in
lemma foldlM_addProject_accepts (os : List BuiltProject) :
    Accepts (AddedProjects al os) IsCycleMessage ((os.flatMap (linkedEdges al)).map edgeEnds)
      (os.foldlM (addProject al) {}) :=
  foldlM_accepts (AddedProjects al)
    (fun os => (os.flatMap (linkedEdges al)).map edgeEnds) (fun _ _ => by simp)
    (fun _ _ b ha hac => addProject_accepts ha hac b)
    ⟨rfl, rfl, by simp⟩ partitionsAcyclic_nil os

/-- Building the project graph fails if and only if a partition has a cycle, in whatever order
the projects are added. The graphs of the partitions can be derived from what it builds. -/
theorem async_graph_cycle_iff (aliases : String → Option Id) (outputs : List BuiltProject) :
    ((∃ source target, outputs.foldlM (addProject aliases) {} =
        .error (ProjectGraphError.wouldCycle source target).message) ↔
      ∃ production, ¬ Acyclic (EdgeRel (partitionEdges production
        ((outputs.flatMap (linkedEdges aliases)).map edgeEnds)))) ∧
    ∀ state, outputs.foldlM (addProject aliases) {} = .ok state →
      ∀ labelIndex, ∃ graphs, setGraph labelIndex (state.edges.map edgeEnds) = .ok graphs ∧
        (∀ edge, edge ∈ graphs.production ↔ edge.2.2.isProductionGroup = true ∧
          edge ∈ (outputs.flatMap (linkedEdges aliases)).map edgeEnds) ∧
        ∀ edge, edge ∈ graphs.development ↔ edge.2.2.isProductionGroup = false ∧
          edge ∈ (outputs.flatMap (linkedEdges aliases)).map edgeEnds := by
  have hr := foldlM_addProject_accepts aliases outputs
  rw [← not_forall]
  cases hst : outputs.foldlM (addProject aliases) {} with
  | error message =>
    rw [hst] at hr
    obtain ⟨⟨source, target, rfl⟩, hc⟩ := hr
    exact ⟨iff_of_true ⟨source, target, rfl⟩ hc, fun _ h => nomatch h⟩
  | ok state =>
    rw [hst] at hr
    refine ⟨iff_of_false (fun ⟨_, _, h⟩ => nomatch h) (not_not_intro hr.2), ?_⟩
    rintro _ ⟨rfl⟩ labelIndex
    have hg := setGraph_accepts labelIndex (state.edges.map edgeEnds)
    rw [hr.1.edges] at hg ⊢
    cases hs : setGraph labelIndex ((outputs.flatMap (linkedEdges aliases)).map edgeEnds) with
    | error error =>
      rw [hs] at hg
      exact absurd hr.2 hg.2
    | ok graphs =>
      rw [hs] at hg
      obtain ⟨rfl, -⟩ := hg
      exact ⟨_, rfl, fun edge => by simp [partitionGraphs, and_comm],
        fun edge => by simp [partitionGraphs, and_comm]⟩

def crossing : List BuiltProject :=
  [{ project := { id := "a", dependencies := [{ id := "b", scope := .production }] } },
   { project := { id := "b", dependencies := [{ id := "a", scope := .development }] } }]

theorem crossing_graphs_derived :
    ∃ state graphs, crossing.foldlM (addProject (fun _ => none)) {} = .ok state ∧
      setGraph id (state.edges.map edgeEnds) = .ok graphs ∧
      ("a", "b", DependencyScope.production) ∈ graphs.production := by
  obtain ⟨graphs, hg, hp, -⟩ := (async_graph_cycle_iff (fun _ => none) crossing).2 _ rfl id
  exact ⟨_, graphs, rfl, hg, (hp _).mpr (by decide)⟩

end

end Moon.Proofs
