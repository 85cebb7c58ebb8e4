import Moon.Proofs.Builder.Graph

/-!
# Serial orders

A serial order puts a dependency, with all the tasks that it requires itself, behind the
previous one.
-/

namespace Moon.Proofs.Builder

open Moon.Lib ActionGraphBuilder List Relation

variable {A : Type} {b : ActionGraphBuilder A} {index : Nat}

/-- An edge to a task that is there for a dependency, and not for an order. -/
def RequiresTask (b : ActionGraphBuilder A) (index depIndex : Nat) : Prop :=
  (index, depIndex) ∈ b.graph.edges ∧ (index, depIndex) ∉ b.serialEdges ∧ ∃ n, TaskAt b depIndex n

lemma mem_requiredTasks {d : Nat} : d ∈ b.requiredTasks index ↔ RequiresTask b index d := by
  have hk : b.graph.nodes[d]?.any ActionNode.isRunTask ↔
      ∃ n, TaskAt b d n := by
    unfold TaskAt
    cases b.graph.nodes[d]? with
    | none => simp
    | some node => cases node <;> simp [ActionNode.isRunTask]
  simp only [requiredTasks, mem_map, mem_filter, Bool.and_eq_true, beq_iff_eq,
    Bool.not_eq_true', contains_eq_mem, decide_eq_false_iff_not]
  constructor
  · rintro ⟨⟨i, j⟩, ⟨hed, ⟨rfl, hs⟩, ht⟩, rfl⟩
    exact ⟨hed, hs, hk.mp ht⟩
  · rintro ⟨hed, hs, ht⟩
    exact ⟨_, ⟨hed, ⟨rfl, hs⟩, hk.mpr ht⟩, rfl⟩

lemma countP_unordered (es : List (Nat × Nat)) {o : List Nat} (h : index ∉ o) :
    es.countP (fun e => e.1 ∉ o ++ [index]) + es.countP (fun e => e.1 == index) =
      es.countP (fun e => e.1 ∉ o) := by
  induction es with
  | nil => rfl
  | cons e es ih =>
    by_cases hed : e.1 = index
    · simp only [countP_cons, ← ih, hed]
      simp [h]
      omega
    · simp only [countP_cons, ← ih]
      simp [hed]
      omega

lemma length_requiredTasks_le (b : ActionGraphBuilder A) (index : Nat) :
    (b.requiredTasks index).length ≤ b.graph.edges.countP (fun e => e.1 == index) := by
  unfold requiredTasks
  rw [length_map, ← countP_eq_length_filter]
  exact countP_mono_left fun e _ h => by simp at h ⊢; exact h.1.1

/-- The fuel is for what is on the stack, and for the edges that may still be followed. -/
lemma serialSubtree_closed (n : Nat) (s o : List Nat)
    (hfl : s.length + b.graph.edges.countP (fun e => e.1 ∉ o) ≤ n)
    (hc : ∀ i ∈ o, ∀ j, RequiresTask b i j → j ∈ o ∨ j ∈ s) :
    o ⊆ b.serialSubtree n s o ∧ s ⊆ b.serialSubtree n s o ∧
      ∀ i ∈ b.serialSubtree n s o, ∀ j, RequiresTask b i j → j ∈ b.serialSubtree n s o := by
  induction n generalizing s o with
  | zero =>
    obtain rfl : s = [] := length_eq_zero_iff.mp (by omega)
    simpa [serialSubtree] using hc
  | succ n ih =>
    cases s with
    | nil => simpa [serialSubtree] using hc
    | cons f s =>
      rw [length_cons] at hfl
      unfold serialSubtree
      split_ifs with hsn
      · obtain ⟨ho, hs, hr⟩ := ih s o (by omega) (fun i hi j hij => by
          rcases hc i hi j hij with hj | hj
          · exact .inl hj
          · rcases mem_cons.mp hj with rfl | hj
            · exact .inl hsn
            · exact .inr hj)
        exact ⟨ho, cons_subset.mpr ⟨ho hsn, hs⟩, hr⟩
      · have hspl := countP_unordered b.graph.edges hsn
        have hle := length_requiredTasks_le b f
        obtain ⟨ho, hs, hr⟩ := ih (b.requiredTasks f ++ s)
          (o ++ [f]) (by rw [length_append]; omega) (fun i hi j hij => by
            rcases mem_append.mp hi with hi | hi
            · rcases hc i hi j hij with hj | hj
              · exact .inl (mem_append_left _ hj)
              · rcases mem_cons.mp hj with rfl | hj
                · exact .inl (mem_append_right _ mem_cons_self)
                · exact .inr (mem_append_right _ hj)
            · rw [mem_singleton.mp hi] at hij
              exact .inr (mem_append_left _ (mem_requiredTasks.mpr hij)))
        obtain ⟨hol, hf⟩ := append_subset.mp ho
        exact ⟨hol, cons_subset.mpr ⟨hf mem_cons_self, (append_subset.mp hs).2⟩, hr⟩

lemma mem_serialSubtree (b : ActionGraphBuilder A) {start : Nat} :
    index ∈ b.serialSubtree (b.graph.edges.length + 1) [start] [] ↔
      ReflTransGen (RequiresTask b) start index := by
  constructor
  · intro h
    rcases serialSubtree_reach b _ _ _ h with hn | ⟨first, hf, hr⟩
    · cases hn
    · rw [mem_singleton.mp hf] at hr
      exact ReflTransGen.mono (fun _ _ => mem_requiredTasks.mp) _ _ hr
  · intro hr
    obtain ⟨-, hs, hc⟩ := serialSubtree_closed (b := b) (b.graph.edges.length + 1)
      [start] [] (by simp [Nat.add_comm]) (by simp)
    induction hr with
    | refl => exact hs mem_cons_self
    | tail _ hst ih => exact hc _ ih _ hst

variable {previous : Nat}

lemma SerialStep.reach {ss : List Nat} {b' : ActionGraphBuilder A} (h : SerialStep b ss previous b')
    {t : Nat} (hr : ReflTransGen (EdgeRel b'.graph.edges) previous t) :
    ReflTransGen (EdgeRel b.graph.edges) previous t := by
  induction hr with
  | refl => exact .refl
  | tail _ hs ih =>
    rcases h.edges _ hs with ho | ⟨-, i, -, heq⟩
    · exact ih.tail ho
    · rw [(Prod.mk.inj heq).2]

lemma tryLinkRequirements_orders (hi : index < b.graph.nodes.length)
    (hp : previous < b.graph.nodes.length) :
    (index, previous) ∈ (b.tryLinkRequirements previous index).graph.edges ∨
      ReflTransGen (EdgeRel b.graph.edges) previous index := by
  unfold tryLinkRequirements
  split_ifs with hm
  · exact .inl (by simpa using hm)
  · cases ha : b.graph.addEdge index previous with
    | none => exact .inr (addEdge_eq_none ha hi hp)
    | some graph =>
      left
      change (index, previous) ∈ graph.edges
      rw [(addEdge_eq_some ha).2.2.2]
      exact mem_append_right _ mem_cons_self

lemma foldl_tryLinkRequirements_orders {ss : List Nat} (hs : ∀ s ∈ ss, s < b.graph.nodes.length)
    (hp : previous < b.graph.nodes.length) :
    ∀ s ∈ ss, (s, previous) ∈ (ss.foldl (tryLinkRequirements previous) b).graph.edges ∨
        ReflTransGen (EdgeRel b.graph.edges) previous s := by
  induction ss generalizing b with
  | nil => simp
  | cons f ss ih =>
    have hst := tryLinkRequirements_spec b f previous
    intro s hso
    rcases mem_cons.mp hso with rfl | hr
    · refine (tryLinkRequirements_orders (hs _ hso) hp).imp_left fun hed => ?_
      exact (foldl_tryLinkRequirements_spec _ ss previous).edges_mono hed
    · rw [← hst.nodes] at hs hp
      exact (ih (forall_mem_of_forall_mem_cons hs) hp s hr).imp_right hst.reach

section

variable {n : RunTaskNode} (hindex : TaskAt b index n)
include hindex

lemma exists_taskAt {s : Nat} (h : ReflTransGen (RequiresTask b) index s) : ∃ m, TaskAt b s m := by
  cases h with
  | refl => exact ⟨n, hindex⟩
  | tail _ hs => exact hs.2.2

lemma linkSerialRequirements_orders {previous s : Nat} (hprevious : previous < b.graph.nodes.length)
    (h : ReflTransGen (RequiresTask b) index s) :
    (s, previous) ∈ (b.linkSerialRequirements index previous).graph.edges ∨
      ReflTransGen (EdgeRel b.graph.edges) previous s := by
  refine foldl_tryLinkRequirements_orders (fun s hme => ?_) hprevious s
    ((mem_serialSubtree b).mpr h)
  obtain ⟨m, hm⟩ := exists_taskAt hindex ((mem_serialSubtree b).mp hme)
  exact hm.lt

/-- In the graphs that the calls of a builder make, only tasks have edges to tasks, so every task is
put behind the previous one, whatever leads to it. -/
theorem serial_order_of_wellFormed {env : BuilderEnv A} (hwf : WellFormed env b) {previous s : Nat}
    (hprevious : previous < b.graph.nodes.length) {m : RunTaskNode} (hm : TaskAt b s m)
    (h : ReflTransGen (fun i j => (i, j) ∈ b.graph.edges ∧ (i, j) ∉ b.serialEdges) index s) :
    (s, previous) ∈ (b.linkSerialRequirements index previous).graph.edges ∨
      ReflTransGen (EdgeRel b.graph.edges) previous s := by
  refine linkSerialRequirements_orders hindex hprevious ?_
  induction h generalizing m with
  | refl => exact .refl
  | tail _ hed ih =>
    have hs := getElem?_eq_getElem (b.graph.edges_lt _ hed.1).1
    obtain ⟨n, hn⟩ := (hwf.allowed _ _ _ _ hed.1 hs hm).of_runTask
    rw [hn] at hs
    exact (ih hs).tail ⟨hed.1, hed.2, m, hm⟩

end

/-- The tasks that a task requires are put behind the previous one, apart from those that it
requires. Nothing else changes. -/
theorem serial_requirements_ordered (b : ActionGraphBuilder A) {n : RunTaskNode}
    (hindex : TaskAt b index n) (hprevious : previous < b.graph.nodes.length) :
    let after := b.linkSerialRequirements index previous
    Acyclic (EdgeRel after.graph.edges) ∧ b.graph.edges ⊆ after.graph.edges ∧
      after.graph.nodes = b.graph.nodes ∧
      (∀ e ∈ after.graph.edges, e ∉ b.graph.edges →
        e.2 = previous ∧ ReflTransGen (RequiresTask b) index e.1 ∧
          (∃ m, TaskAt b e.1 m) ∧ e ∈ after.serialEdges) ∧
      ∀ s, ReflTransGen (RequiresTask b) index s → (s, previous) ∈ after.graph.edges ∨
          ReflTransGen (EdgeRel b.graph.edges) previous s := by
  have hs := foldl_tryLinkRequirements_spec b
    (b.serialSubtree (b.graph.edges.length + 1) [index] []) previous
  refine ⟨ActionGraph.acyclic _, hs.edges_mono, hs.nodes, fun e hed hn => ?_,
    fun s => linkSerialRequirements_orders hindex hprevious⟩
  obtain ⟨hsr, i, hi, rfl⟩ := (hs.edges e hed).resolve_left hn
  have hr := (mem_serialSubtree b).mp hi
  exact ⟨rfl, hr, exists_taskAt hindex hr, hsr⟩

/-- A builder with the tasks `a`, `c` and `p`, where `a` leads to `c` by the given edges. -/
def serialBuilder (edges : List (Nat × Nat)) (hlt : ∀ edge ∈ edges, edge.1 < edge.2 ∧ edge.2 < 4) :
    ActionGraphBuilder Unit where
  graph :=
    { nodes := [.runTask { target := Target.new "app" "a" }, .syncProject "app",
        .runTask { target := Target.new "app" "c" }, .runTask { target := Target.new "app" "p" }]
      edges := edges
      edges_lt := fun edge hedge =>
        ⟨(hlt edge hedge).1.trans (hlt edge hedge).2, (hlt edge hedge).2⟩
      acyclic := acyclic_of_rank (fun i => 4 - i)
        (fun i j hedge => by have := hlt _ hedge; dsimp only at this ⊢; omega) }

theorem a_with_c_ordered_behind_p :
    let b := serialBuilder [(0, 2)] (by decide)
    (2, 3) ∈ (b.linkSerialRequirements 0 3).graph.edges ∨
      ReflTransGen (EdgeRel b.graph.edges) 3 2 := by
  have ha : TaskAt (serialBuilder [(0, 2)] (by decide)) 0 { target := Target.new "app" "a" } := rfl
  exact (serial_requirements_ordered _ ha (by decide)).2.2.2.2 2
    (.single ⟨by decide, by decide, _, rfl⟩)

/-- The walk does not go on from an action that is not a task. -/
theorem c_not_ordered_behind_sync :
    let b := serialBuilder [(0, 1), (1, 2)] (by decide)
    ReflTransGen (fun i j => (i, j) ∈ b.graph.edges ∧ (i, j) ∉ b.serialEdges) 0 2 ∧
      (∃ n, TaskAt b 2 n) ∧ (2, 3) ∉ (b.linkSerialRequirements 0 3).graph.edges ∧
      ¬ ReflTransGen (EdgeRel b.graph.edges) 3 2 := by
  refine ⟨.tail (b := 1) (.single ?_) ?_, ⟨_, rfl⟩, by decide, ?_⟩
  · decide
  · decide
  rw [← reaches_iff]
  decide

end Moon.Proofs.Builder
