import Moon.Proofs.ProjectPartitions

/-! # What a finished graph keeps of its builder -/

namespace Moon.Proofs

open Moon.Lib List BuilderGraph

variable {K T S : Type} {key : T → K} {g : BuilderGraph K T S} {i : Nat}

section

variable [DecidableEq K]

/-- What the operations of the builder can make. -/
inductive Built (key : T → K) : BuilderGraph K T S → Prop
  | empty : Built key {}
  | node {graph : BuilderGraph K T S} (h : Built key graph) (k : K) :
      Built key (graph.getOrInsertNode k).1
  | value {graph : BuilderGraph K T S} (h : Built key graph) (value : T) :
      Built key (graph.insertOrUpdateNode key value)
  | edge {graph : BuilderGraph K T S} (h : Built key graph) (edge : Nat × Nat × S) :
      Built key { graph with edges := graph.edges ++ [edge] }

def Keyed (key : T → K) (graph : BuilderGraph K T S) : Prop :=
  ∀ index value, graph.loadedAt index = some value →
    graph.keysToIndexes.lookup (key value) = some index

omit [DecidableEq K] in
lemma loadedAt_eq_some {v : T} : g.loadedAt i = some v ↔ g.nodes[i]? = some (.loaded v) := by
  unfold loadedAt
  split <;> simp_all

lemma Keyed.addNode (h : Keyed key g) {k : K} {n : NodeState T}
    (hf : ∀ i v, g.loadedAt i = some v → key v ≠ k) (hn : ∀ v, n = .loaded v → key v = k) :
    Keyed key (g.addNode k n) := by
  intro i v hv
  rw [loadedAt_eq_some] at hv
  simp only [BuilderGraph.addNode, Map.lookup_insert_eq] at hv ⊢
  rcases Nat.lt_trichotomy i g.nodes.length with hl | rfl | hg
  · rw [getElem?_append_left hl, ← loadedAt_eq_some] at hv
    rw [if_neg (hf i v hv), h i v hv]
  · rw [getElem?_concat_length] at hv
    rw [if_pos (hn v (Option.some.inj hv))]
  · rw [getElem?_eq_none (by rw [length_append]; exact hg)] at hv
    cases hv

lemma Built.keyed (h : Built key g) : Keyed key g := by
  induction h with
  | empty => exact fun _ _ hv => by simp [loadedAt] at hv
  | @node g _ k ih =>
    unfold getOrInsertNode
    split
    · exact ih
    · next hn =>
      refine ih.addNode (fun i value hv hk => ?_) (fun _ hl => nomatch hl)
      rw [← hk, ih i value hv] at hn
      cases hn
  | @value g _ value ih =>
    have ha (hfr : ∀ i, g.keysToIndexes.lookup (key value) = some i →
        ¬ i < g.nodes.length) : Keyed key (g.addNode (key value) (.loaded value)) := by
      refine ih.addNode (fun i o ho hk => ?_) (fun _ hld => by cases hld; rfl)
      refine hfr i (hk ▸ ih i o ho) ?_
      rw [loadedAt_eq_some] at ho
      exact (List.getElem?_eq_some_iff.mp ho).1
    unfold insertOrUpdateNode
    split
    · next i hi =>
      split
      · intro o f hf
        rw [loadedAt_eq_some, getElem?_set] at hf
        split at hf
        · next heq =>
          obtain rfl : value = f := by simp_all
          exact heq ▸ hi
        · exact ih o f (loadedAt_eq_some.mpr hf)
      · next hout => exact ha (fun o ho => by simp_all)
    · next hn => exact ha (fun i hi => by simp [hn] at hi)
  | edge _ _ ih => exact ih

end

lemma mem_keptIndexes {old : Nat} : old ∈ g.keptIndexes ↔ ∃ v, g.loadedAt old = some v := by
  rw [keptIndexes, mem_filter, mem_range, Option.isSome_iff_exists, and_iff_right_iff_imp]
  rintro ⟨v, hv⟩
  rw [loadedAt_eq_some] at hv
  exact (List.getElem?_eq_some_iff.mp hv).1

lemma nodup_keptIndexes : g.keptIndexes.Nodup := nodup_range.filter _

lemma idxOf?_keptIndexes {old : Nat} :
    g.keptIndexes.idxOf? old = some i ↔ g.keptIndexes[i]? = some old := by
  rw [idxOf?_eq_some_iff, List.getElem?_eq_some_iff]
  refine exists_congr (fun hidx => and_iff_left_of_imp (fun hol o ho heq => ?_))
  have hsm := (nodup_keptIndexes.getElem_inj_iff).mp (heq.trans hol.symm)
  omega

lemma mem_edges_filterMap {s t : Nat} {scope : S} :
    (s, t, scope) ∈ (g.filterMap : FinalGraph K T S).edges ↔ ∃ old o, (old, o, scope) ∈ g.edges ∧
        g.keptIndexes[s]? = some old ∧ g.keptIndexes[t]? = some o := by
  simp only [BuilderGraph.filterMap, mem_filterMap, Prod.exists, Option.bind_eq_bind,
    Option.bind_eq_some_iff, idxOf?_keptIndexes, Option.pure_def, Option.some.injEq,
    Prod.mk.injEq]
  constructor
  · rintro ⟨old, o, _, hed, _, hol, _, ho, rfl, rfl, rfl⟩
    exact ⟨old, o, hed, hol, ho⟩
  · rintro ⟨old, o, hed, hol, ho⟩
    exact ⟨old, o, scope, hed, s, hol, t, ho, rfl, rfl, rfl⟩

variable (g) in
def entries : List (Nat × T) :=
  g.keptIndexes.zipIdx.filterMap (fun node =>
    (g.loadedAt node.1).map (fun value => (node.2, value)))

lemma mem_entries {v : T} :
    (i, v) ∈ entries g ↔ ∃ old, g.keptIndexes[i]? = some old ∧ g.loadedAt old = some v := by
  simp [entries, mem_filterMap, mem_zipIdx_iff_getElem?]

variable [DecidableEq K]

variable (g key) in
lemma finalize_eq : g.finalize key =
    { weights := List.range g.keptIndexes.length
      edges := (g.filterMap : FinalGraph K T S).edges
      indexes := (entries g).foldl (fun m e => m.insert e.1 (key e.2)) ∅
      nodes := (entries g).foldl (fun m e => m.insert (key e.2) e) ∅ } := by
  have hf (l : List (Nat × Nat)) (f : FinalGraph K T S) :
      l.foldl (g.keepNode key) f = let kept := l.filterMap (fun n =>
          (g.loadedAt n.1).map (fun v => (n.2, v)))
        { f with
          indexes := kept.foldl (fun m e => m.insert e.1 (key e.2)) f.indexes
          nodes := kept.foldl (fun m e => m.insert (key e.2) e) f.nodes } := by
    induction l generalizing f with
    | nil => rfl
    | cons n l ih =>
      rw [foldl_cons, ih, keepNode]
      cases hv : g.loadedAt n.1 <;> simp [hv]
  unfold finalize
  dsimp only
  rw [hf]
  rfl

/-- Loaded nodes and the edges between them are kept, renumbered. -/
structure FinalizesTo (key : T → K) (graph : BuilderGraph K T S) (final : FinalGraph K T S) :
    Prop where
  weights : ∀ index, index < final.weights.length → final.weights[index]? = some index
  inverse : ∀ index k, final.indexes.lookup index = some k ↔
    ∃ value, final.nodes.lookup k = some (index, value)
  numbered : ∀ index, index < final.weights.length ↔ ∃ k, final.indexes.lookup index = some k
  kept : ∀ k value, (∃ index, final.nodes.lookup k = some (index, value)) ↔
    key value = k ∧ .loaded value ∈ graph.nodes
  edges : ∀ source target scope, (source, target, scope) ∈ final.edges ↔
    ∃ old other value v', (old, other, scope) ∈ graph.edges ∧
      graph.nodes[old]? = some (.loaded value) ∧ graph.nodes[other]? = some (.loaded v') ∧
      final.nodes.lookup (key value) = some (source, value) ∧
      final.nodes.lookup (key v') = some (target, v')

section

variable (hkeyed : Keyed key g)

include hkeyed in
lemma entries_key {e o : Nat × T} (hen : e ∈ entries g)
    (ho : o ∈ entries g) (hk : key e.2 = key o.2) : e = o := by
  obtain ⟨old, hol, hv⟩ := mem_entries.mp hen
  obtain ⟨old', ho', hv'⟩ := mem_entries.mp ho
  have hs : old = old' := Option.some.inj ((hkeyed old _ hv).symm.trans (hk ▸ hkeyed old' _ hv'))
  subst hs
  refine Prod.ext ?_ (Option.some.inj (hv.symm.trans hv'))
  exact (getElem?_inj (List.getElem?_eq_some_iff.mp hol).1 nodup_keptIndexes).mp
    (hol.trans ho'.symm)

include hkeyed in
lemma lookup_nodes {k : K} {e : Nat × T} :
    (g.finalize key).nodes.lookup k = some e ↔ e ∈ entries g ∧ key e.2 = k := by
  rw [finalize_eq, Map.lookup_foldl_insert (fun x hx y hy => entries_key hkeyed hx hy)]
  constructor
  · rintro ⟨_, hm, hk, rfl⟩
    exact ⟨hm, hk⟩
  · exact fun ⟨hm, hk⟩ => ⟨e, hm, hk, rfl⟩

lemma lookup_indexes {k : K} :
    (g.finalize key).indexes.lookup i = some k ↔ ∃ v, (i, v) ∈ entries g ∧ key v = k := by
  rw [finalize_eq, Map.lookup_foldl_insert]
  · constructor
    · rintro ⟨⟨_, v⟩, hm, rfl, hk⟩
      exact ⟨v, hm, hk⟩
    · exact fun ⟨v, hm, hk⟩ => ⟨_, hm, rfl, hk⟩
  · rintro ⟨i, v⟩ hx ⟨_, o⟩ hy rfl
    obtain ⟨old, hol, hv⟩ := mem_entries.mp hx
    obtain ⟨old', ho', ho⟩ := mem_entries.mp hy
    cases hol.symm.trans ho'
    exact congrArg key (Option.some.inj (hv.symm.trans ho))

include hkeyed in
lemma Keyed.finalizesTo : FinalizesTo key g (g.finalize key) where
  weights i hi := by
    rw [finalize_eq, List.length_range] at hi
    rw [finalize_eq, List.getElem?_range hi]
  inverse i k := by
    simp only [lookup_indexes, lookup_nodes hkeyed]
  numbered i := by
    simp only [lookup_indexes, mem_entries]
    rw [finalize_eq, List.length_range]
    constructor
    · intro hi
      have hol := List.getElem?_eq_getElem hi
      obtain ⟨value, hv⟩ := mem_keptIndexes.mp (List.mem_of_getElem? hol)
      exact ⟨_, value, ⟨_, hol, hv⟩, rfl⟩
    · rintro ⟨_, _, ⟨_, hol, -⟩, -⟩
      exact (List.getElem?_eq_some_iff.mp hol).1
  kept k value := by
    rw [mem_iff_getElem?]
    simp only [lookup_nodes hkeyed, mem_entries, ← loadedAt_eq_some]
    constructor
    · rintro ⟨_, ⟨old, -, hv⟩, hk⟩
      exact ⟨hk, old, hv⟩
    · rintro ⟨hk, old, hv⟩
      obtain ⟨i, hi⟩ := mem_iff_getElem?.mp (mem_keptIndexes.mpr ⟨value, hv⟩)
      exact ⟨i, ⟨old, hi, hv⟩, hk⟩
  edges source target scope := by
    simp only [lookup_nodes hkeyed, and_true, mem_entries, ← loadedAt_eq_some]
    rw [finalize_eq]
    simp only [mem_edges_filterMap]
    constructor
    · rintro ⟨old, o, hed, hol, ho⟩
      obtain ⟨value, hv⟩ := mem_keptIndexes.mp (List.mem_of_getElem? hol)
      obtain ⟨v', hv'⟩ := mem_keptIndexes.mp (List.mem_of_getElem? ho)
      exact ⟨old, o, value, v', hed, hv, hv', ⟨old, hol, hv⟩, o, ho, hv'⟩
    · rintro ⟨old, o, value, v', hed, hv, hv', ⟨old', hol, hs⟩, other', ho, hs'⟩
      cases (hkeyed _ _ hs).symm.trans (hkeyed _ _ hv)
      cases (hkeyed _ _ hs').symm.trans (hkeyed _ _ hv')
      exact ⟨old, o, hed, hol, ho⟩

end

omit [DecidableEq K] in
lemma partitionsAcyclic_filterMap {g : BuilderGraph K T DependencyScope}
    (h : PartitionsAcyclic g.edges) :
    PartitionsAcyclic (g.filterMap : FinalGraph K T DependencyScope).edges := by
  intro p i hc
  refine h p _ (hc.lift (fun i => (g.keptIndexes[i]?).getD 0) ?_)
  intro s t hl
  simp only [EdgeRel, partitionEdges, mem_map, mem_filter] at hl
  obtain ⟨⟨_, _, scope⟩, ⟨hed, hsc⟩, hen⟩ := hl
  cases hen
  obtain ⟨old, o, ho, hs, ht⟩ := mem_edges_filterMap.mp hed
  refine mem_map.mpr ⟨_, mem_filter.mpr ⟨ho, hsc⟩, ?_⟩
  simp [hs, ht]

/-- Every graph of a builder is finished with inverse maps, nodes that know their own index, and
the loaded nodes with the edges between them. That of the projects is refused only for a cycle
in one of its partitions. -/
theorem finished_graphs_exact {P : Type} {key : T → K} {id : P → Id}
    {tasks : BuilderGraph K T S} {projects : BuilderGraph Id P DependencyScope}
    (htasks : Built key tasks) (hprojects : Built id projects) :
    FinalizesTo key tasks (tasks.finalize key) ∧
      (∀ final graphs, projects.finalizeProjects id = .ok (final, graphs) →
        FinalizesTo id projects final ∧ graphs = partitionGraphs final.edges) ∧
      (PartitionsAcyclic projects.edges → ∃ result, projects.finalizeProjects id = .ok result) := by
  refine ⟨htasks.keyed.finalizesTo, ?_⟩
  have hg := setGraph_accepts (fun i =>
    ((projects.finalize id).indexes.lookup i).getD (toString i)) (projects.finalize id).edges
  unfold finalizeProjects
  dsimp only
  cases hs : setGraph (fun i =>
    ((projects.finalize id).indexes.lookup i).getD (toString i))
      (projects.finalize id).edges with
  | error error =>
    rw [hs] at hg
    refine ⟨fun _ _ h => (nomatch h), fun ha => absurd ?_ hg.2⟩
    rw [finalize_eq]
    exact partitionsAcyclic_filterMap ha
  | ok graphs =>
    rw [hs] at hg
    refine ⟨?_, fun _ => ⟨_, rfl⟩⟩
    rintro _ _ ⟨rfl⟩
    exact ⟨hprojects.keyed.finalizesTo, hg.1⟩

/-- `ghost` is never loaded, and `app` and `ui` depend on each other in different scopes. -/
def ghostAndApp : BuilderGraph Id Id DependencyScope :=
  let graph : BuilderGraph Id Id DependencyScope := (getOrInsertNode {} "ghost").1
  { (graph.insertOrUpdateNode (fun id => id) "app").insertOrUpdateNode (fun id => id) "ui" with
    edges := [(1, 0, .production), (1, 2, .production), (2, 1, .development)] }

theorem ghost_dropped :
    ∃ final graphs, ghostAndApp.finalizeProjects (fun id => id) = .ok (final, graphs) ∧
      FinalizesTo (fun id => id) ghostAndApp final ∧
      final.edges = [(0, 1, .production), (1, 0, .development)] := by
  have hb : Built (fun id => id) ghostAndApp :=
    .edge (.edge (.edge (.value (.value (.node .empty "ghost") "app") "ui")
      (1, 0, DependencyScope.production)) (1, 2, .production)) (2, 1, .development)
  have ha : PartitionsAcyclic ghostAndApp.edges := by
    intro p
    cases p with
    | true =>
      refine acyclic_of_rank (fun index => (index + 1) % 3) (fun source target h => ?_)
      change (source, target) ∈ [(1, 0), (1, 2)] at h
      rcases mem_pair.mp h with h | h <;> cases h <;> decide
    | false =>
      refine acyclic_of_rank id (fun source target h => ?_)
      cases mem_singleton.mp h
      decide
  obtain ⟨-, hf, ho⟩ := finished_graphs_exact hb hb
  obtain ⟨⟨final, graphs⟩, hr⟩ := ho ha
  refine ⟨final, graphs, hr, (hf _ _ hr).1, ?_⟩
  cases hr
  rfl

end Moon.Proofs
