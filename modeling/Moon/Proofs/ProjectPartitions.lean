import Moon.FinalGraph

/-!
# Partitions of the project graph

Edges that are added one at a time, each refused when it closes a cycle of its partition, are
all accepted if and only if the partitions have no cycles.
-/

namespace Moon.Proofs

open Moon.Lib Relation List

variable {α β σ ε : Type} {es : List (α × α × DependencyScope)} {e : α × α × DependencyScope}

def partitionEdges (production : Bool) (edges : List (α × α × DependencyScope)) : List (α × α) :=
  (edges.filter (fun edge => edge.2.2.isProductionGroup == production)).map
    (fun edge => (edge.1, edge.2.1))

/-- Neither partition has a cycle; the two together may. -/
def PartitionsAcyclic (edges : List (α × α × DependencyScope)) : Prop :=
  ∀ production, Acyclic (EdgeRel (partitionEdges production edges))

lemma partitionsAcyclic_nil : PartitionsAcyclic ([] : List (α × α × DependencyScope)) :=
  fun _ => acyclic_of_rank (fun _ => 0) (fun _ _ h => (not_mem_nil h).elim)

lemma PartitionsAcyclic.mono {es' : List (α × α × DependencyScope)}
    (h : PartitionsAcyclic es) (hs : es' ⊆ es) : PartitionsAcyclic es' :=
  fun p => (h p).mono (fun _ _ ha => map_subset _ (filter_subset _ hs) ha)

lemma partitionEdges_append_singleton (p : Bool) :
    partitionEdges p (es ++ [e]) = if e.2.2.isProductionGroup = p then
        partitionEdges p es ++ [(e.1, e.2.1)]
      else partitionEdges p es := by
  unfold partitionEdges
  by_cases h : e.2.2.isProductionGroup = p <;> simp [filter_append, h]

lemma partitionsAcyclic_append_singleton [DecidableEq α] (h : PartitionsAcyclic es)
    (e : α × α × DependencyScope) :
    PartitionsAcyclic (es ++ [e]) ↔
      reaches (partitionEdges e.2.2.isProductionGroup es) e.2.1 e.1 = false := by
  rw [← Bool.not_eq_true, reaches_iff]
  constructor
  · intro ha hp
    refine ha e.2.2.isProductionGroup e.1 ?_
    rw [partitionEdges_append_singleton, if_pos rfl]
    exact TransGen.head' (mem_append_right _ mem_cons_self)
      (ReflTransGen.mono (fun _ _ hab => mem_append_left _ hab) _ _ hp)
  · intro hp p
    rw [partitionEdges_append_singleton]
    split
    · next hpr =>
      subst hpr
      rw [edgeRel_append_singleton]
      exact (h _).insert_edge hp
    · exact h p

def Accepts (good : σ → Prop) (refused : ε → Prop) (edges : List (α × α × DependencyScope)) :
    Except ε σ → Prop
  | .ok state => good state ∧ PartitionsAcyclic edges
  | .error error => refused error ∧ ¬ PartitionsAcyclic edges

lemma foldlM_accepts (R : List β → σ → Prop) {r : ε → Prop}
    (ed : List β → List (α × α × DependencyScope))
    (hm : ∀ d xs, ed d ⊆ ed (d ++ xs)) {step : σ → β → Except ε σ}
    (hst : ∀ s d x, R d s → PartitionsAcyclic (ed d) →
      Accepts (R (d ++ [x])) r (ed (d ++ [x])) (step s x))
    {start : σ} (hs : R [] start) (hem : PartitionsAcyclic (ed [])) (xs : List β) :
    Accepts (R xs) r (ed xs) (xs.foldlM step start) := by
  have hr : ∀ xs d s, R d s → PartitionsAcyclic (ed d) →
      Accepts (R (d ++ xs)) r (ed (d ++ xs)) (xs.foldlM step s) := by
    intro xs
    induction xs with
    | nil => exact fun d s hR ha => (append_nil d).symm ▸ ⟨hR, ha⟩
    | cons x xs ih =>
      intro d s hR ha
      have hi := hst s d x hR ha
      rw [foldlM_cons, append_cons]
      cases hr : step s x with
      | error error =>
        rw [hr] at hi
        exact ⟨hi.1, fun hal => hi.2 (hal.mono (hm _ _))⟩
      | ok next =>
        rw [hr] at hi
        exact ih _ _ hi.1 hi.2
  exact hr xs [] start hs hem

def partitionGraphs (edges : List (α × α × DependencyScope)) : PartitionGraphs α where
  production := edges.filter (fun edge => edge.2.2.isProductionGroup)
  development := edges.filter (fun edge => !edge.2.2.isProductionGroup)

def IsCycle (error : ProjectGraphError) : Prop := ∃ source target, error = .wouldCycle source target

variable [DecidableEq α]

lemma addEdge_partition (es : List (α × α × DependencyScope)) (e : α × α × DependencyScope) :
    addEdge (es.filter (fun o => o.2.2.isProductionGroup == e.2.2.isProductionGroup)) e =
      if reaches (partitionEdges e.2.2.isProductionGroup es) e.2.1 e.1 then none
      else some ((es ++ [e]).filter (fun o => o.2.2.isProductionGroup ==
        e.2.2.isProductionGroup)) := by
  simp [addEdge, partitionEdges, filter_append]

lemma routeEdge_partition (l : α → Id) (e : α × α × DependencyScope) :
    routeEdge l (partitionGraphs es) e =
      if reaches (partitionEdges e.2.2.isProductionGroup es) e.2.1 e.1 then
        .error (.wouldCycle (l e.1) (l e.2.1))
      else .ok (partitionGraphs (es ++ [e])) := by
  have hadd := addEdge_partition es e
  by_cases hbc : reaches (partitionEdges e.2.2.isProductionGroup es) e.2.1 e.1
  · cases hs : e.2.2.isProductionGroup <;>
      simp_all [routeEdge, partitionGraphs]
  · cases hs : e.2.2.isProductionGroup <;>
      simp_all [routeEdge, partitionGraphs, filter_append]

lemma setGraph_accepts (l : α → Id) (es : List (α × α × DependencyScope)) :
    Accepts (fun gs => gs = partitionGraphs es) IsCycle es (setGraph l es) := by
  refine foldlM_accepts (fun es gs => gs = partitionGraphs es) (fun es => es)
    (fun _ _ => subset_append_left _ _) ?_ rfl partitionsAcyclic_nil es
  rintro _ d e rfl hac
  have hn := partitionsAcyclic_append_singleton hac e
  rw [routeEdge_partition]
  split
  · next hb => exact ⟨⟨_, _, rfl⟩, fun ha => by simp [hn.mp ha] at hb⟩
  · next hb => exact ⟨rfl, hn.mpr (Bool.not_eq_true _ ▸ hb)⟩

end Moon.Proofs
