import Moon.ActionGraphBuilder
import Moon.Lib.Hoare

/-! # Nodes and edges of the builder -/

namespace Moon.Proofs.Builder

open Moon.Lib ActionGraphBuilder List ActionGraph

variable {A : Type}

lemma addEdge_eq_some {g after : ActionGraph} {s t : Nat} (h : g.addEdge s t = some after) :
    s < g.nodes.length ∧ t < g.nodes.length ∧
      after.nodes = g.nodes ∧ after.edges = g.edges ++ [(s, t)] := by
  unfold ActionGraph.addEdge at h
  split_ifs at h with hg
  cases h
  exact ⟨hg.1, hg.2.1, rfl, rfl⟩

lemma addEdge_eq_none {g : ActionGraph} {s t : Nat} (h : g.addEdge s t = none)
    (hs : s < g.nodes.length) (ht : t < g.nodes.length) :
    Relation.ReflTransGen (EdgeRel g.edges) t s := by
  unfold ActionGraph.addEdge at h
  split_ifs at h with hg
  rw [← reaches_iff]
  by_contra hr
  exact hg ⟨hs, ht, by simpa using hr⟩

def TaskAt (b : ActionGraphBuilder A) (index : Nat) (n : RunTaskNode) : Prop :=
  b.graph.nodes[index]? = some (.runTask n)

def HasNode (b : ActionGraphBuilder A) (n : RunTaskNode) : Prop :=
  ActionNode.runTask n ∈ b.graph.nodes

instance (b : ActionGraphBuilder A) (n : RunTaskNode) : Decidable (HasNode b n) :=
  inferInstanceAs (Decidable (ActionNode.runTask n ∈ b.graph.nodes))

section

variable (b : ActionGraphBuilder A)

/-- One of the pairs joins the nodes of the two tasks. -/
def Linked (pairs : List (Nat × Nat)) (n m : RunTaskNode) : Prop :=
  ∃ index depIndex, TaskAt b index n ∧ TaskAt b depIndex m ∧ (index, depIndex) ∈ pairs

def HasEdge : RunTaskNode → RunTaskNode → Prop := Linked b b.graph.edges

def HasRequirement : RunTaskNode → RunTaskNode → Prop :=
  Linked b b.requirements

def linkedTasks (pairs : List (Nat × Nat)) :
    List (RunTaskNode × RunTaskNode) :=
  pairs.filterMap (fun (pair : Nat × Nat) =>
    match b.graph.nodes[pair.1]?, b.graph.nodes[pair.2]? with
    | some (.runTask n), some (.runTask m) => some (n, m)
    | _, _ => none)

end

variable {n m : RunTaskNode} {b : ActionGraphBuilder A}

lemma mem_linkedTasks {ps : List (Nat × Nat)} : (n, m) ∈ linkedTasks b ps ↔ Linked b ps n m := by
  unfold linkedTasks
  rw [mem_filterMap]
  constructor
  · rintro ⟨⟨i, j⟩, hm, hp⟩
    split at hp
    case h_1 n' m' hi hj =>
      cases hp
      exact ⟨i, j, hi, hj, hm⟩
    case h_2 => cases hp
  · rintro ⟨i, j, hi, hj, hm⟩
    unfold TaskAt at hi hj
    exact ⟨(i, j), hm, by simp [hi, hj]⟩

variable {index : Nat}

section

variable (h : TaskAt b index n)
include h

lemma TaskAt.lt : index < b.graph.nodes.length := (List.getElem?_eq_some_iff.mp h).1

lemma TaskAt.hasNode : HasNode b n := List.mem_of_getElem? h

lemma TaskAt.unique (h' : TaskAt b index m) : n = m := by
  unfold TaskAt at h h'
  rw [h] at h'
  cases h'
  rfl

end

/-- Nothing that was built is taken back. -/
structure Grows (b b' : ActionGraphBuilder A) : Prop where
  nodes : b.graph.nodes <+: b'.graph.nodes
  edges : b.graph.edges ⊆ b'.graph.edges
  requirements : b.requirements ⊆ b'.requirements
  passthrough : b.passthroughTargets ⊆ b'.passthroughTargets

lemma Grows.refl (b : ActionGraphBuilder A) : Grows b b :=
  ⟨prefix_rfl, List.Subset.refl _, List.Subset.refl _, List.Subset.refl _⟩

variable {b' b'' : ActionGraphBuilder A} {E : ActionGraphError → ActionGraphBuilder A → Prop}
  {P : ActionGraphBuilder A → Prop}

section

variable (h : Grows b b')
include h

lemma Grows.trans (h' : Grows b' b'') : Grows b b'' :=
  ⟨h.nodes.trans h'.nodes, List.Subset.trans h.edges h'.edges,
    List.Subset.trans h.requirements h'.requirements,
    List.Subset.trans h.passthrough h'.passthrough⟩

lemma Grows.getElem? {node : ActionNode}
    (hn : b.graph.nodes[index]? = some node) : b'.graph.nodes[index]? = some node := by
  obtain ⟨extra, hex⟩ := h.nodes
  rw [← hex, List.getElem?_append_left (List.getElem?_eq_some_iff.mp hn).1, hn]

lemma Grows.hasNode (hn : HasNode b n) : HasNode b' n := h.nodes.subset hn

lemma Grows.hasEdge (hed : HasEdge b n m) : HasEdge b' n m := by
  obtain ⟨i, j, hi, hj, hm⟩ := hed
  exact ⟨i, j, h.getElem? hi, h.getElem? hj, h.edges hm⟩

lemma Grows.hasRequirement (hr : HasRequirement b n m) : HasRequirement b' n m := by
  obtain ⟨i, j, hi, hj, hm⟩ := hr
  exact ⟨i, j, h.getElem? hi, h.getElem? hj, h.requirements hm⟩

end

lemma Triple.orFail_bind {ε α β : Type} {wrap : ε → ActionGraphError} {result : Except ε α}
    {f : α → BuildM A β} {Q : β → ActionGraphBuilder A → Prop}
    (ho : ∀ r, result = .ok r → Triple P (f r) Q E)
    (her : ∀ error s, P s → E (wrap error) s) : Triple P (orFail wrap result >>= f) Q E := by
  cases result with
  | ok r => exact fun s hs => ho r rfl s hs
  | error error => exact fun s hs => her error s hs

lemma orFail_run_eq_ok {ε α : Type} {wrap : ε → ActionGraphError} {result : Except ε α}
    {r : α} (h : (orFail wrap result).run b = .ok r b') : result = .ok r ∧ b' = b := by
  cases result with
  | ok r' =>
    cases h
    exact ⟨rfl, rfl⟩
  | error error => cases h

structure LinkStep (b : ActionGraphBuilder A) (index : Nat) (targets : List Nat)
    (b' : ActionGraphBuilder A) : Prop where
  nodes : b'.graph.nodes = b.graph.nodes
  edges : ∀ edge, edge ∈ b'.graph.edges ↔
    edge ∈ b.graph.edges ∨ ∃ depIndex ∈ targets, edge = (index, depIndex)
  requirements : ∀ edge, edge ∈ b'.requirements ↔
    edge ∈ b.requirements ∨ ∃ depIndex ∈ targets, edge = (index, depIndex)
  rest : b' = { b with graph := b'.graph, requirements := b'.requirements }

def Refused (b : ActionGraphBuilder A) (index : Nat) (edges : List Nat) : Prop :=
  ∃ depIndex ∈ edges, index < b.graph.nodes.length → depIndex < b.graph.nodes.length →
    Relation.ReflTransGen (EdgeRel b.graph.edges) depIndex index

lemma linkRequirement_spec (b : ActionGraphBuilder A) (index ed : Nat) :
    Triple (fun s => s = b) (linkRequirement index ed)
      (fun _ b' => LinkStep b index [ed] b') (fun _ _ => Refused b index [ed]) := by
  unfold linkRequirement
  apply Triple.get_bind
  rintro s rfl
  apply Triple.ite
  · intro hm
    apply Triple.modify
    rintro s' rfl
    have hm : (index, ed) ∈ s'.graph.edges := by simpa using hm
    refine ⟨rfl, fun e => ?_, fun e => by simp, rfl⟩
    constructor
    · exact .inl
    · rintro (h | ⟨j, hj, rfl⟩)
      · exact h
      · rw [mem_singleton.mp hj]
        exact hm
  · intro _
    cases ha : s.graph.addEdge index ed with
    | some g =>
      apply Triple.modify
      rintro s' rfl
      obtain ⟨-, -, hn, hes⟩ := addEdge_eq_some ha
      refine ⟨hn, fun e => ?_, fun e => by simp, rfl⟩
      change e ∈ g.edges ↔ _
      rw [hes]
      simp
    | none =>
      apply Triple.throw
      rintro s' rfl
      exact ⟨ed, mem_singleton_self ed, fun hi hj => addEdge_eq_none ha hi hj⟩

variable {es : List Nat}

lemma LinkStep.refused {e : Nat} (h : LinkStep b index [e] b')
    (hrf : Refused b' index es) : Refused b index (e :: es) := by
  obtain ⟨j, hj, hr⟩ := hrf
  rw [h.nodes] at hr
  refine ⟨j, mem_cons_of_mem _ hj, fun hi hl => ?_⟩
  have hb := hr hi hl
  -- The new edge leaves the node, so that it does not help to reach it.
  refine ((reflTransGen_insert_edge (x := index) (y := e)).mp ?_).elim id And.left
  apply Relation.ReflTransGen.mono _ j index hb
  intro c d hc
  rcases (h.edges (c, d)).mp hc with ho | ⟨k, hk, heq⟩
  · exact .inl ho
  · rw [mem_singleton.mp hk] at heq
    exact .inr (Prod.mk.inj heq)

lemma linkRequirements_spec (b : ActionGraphBuilder A) (index : Nat) (es : List Nat) :
    Triple (fun s => s = b) (linkRequirements index es)
      (fun _ b' => LinkStep b index es b') (fun _ _ => Refused b index es) := by
  induction es generalizing b with
  | nil =>
    apply Triple.pure
    rintro s rfl
    exact ⟨rfl, fun e => by simp, fun e => by simp, rfl⟩
  | cons ed es ih =>
    unfold linkRequirements
    apply Triple.bind_at (M := fun _ b' => LinkStep b index [ed] b')
    · apply (linkRequirement_spec b index ed).conseq (fun _ h => h) (fun _ _ h => h)
      rintro _ _ ⟨j, hj, hr⟩
      rw [mem_singleton.mp hj] at hr
      exact ⟨ed, mem_cons_self, hr⟩
    · intro _ b' hs
      refine (ih b').conseq (fun _ h => h) (fun _ b'' h => ?_) (fun _ _ h => hs.refused h)
      refine ⟨h.nodes.trans hs.nodes, fun e => ?_, fun e => ?_, ?_⟩
      · rw [h.edges, hs.edges]
        simp [or_assoc]
      · rw [h.requirements, hs.requirements]
        simp [or_assoc]
      · rw [h.rest, hs.rest]

lemma Triple.linkRequirements {Q : Unit → ActionGraphBuilder A → Prop}
    (ho : ∀ b b', P b → LinkStep b index es b' → Q () b')
    (her : ∀ b e b', P b → Refused b index es → E e b') :
    Triple P (ActionGraphBuilder.linkRequirements index es) Q E := by
  intro b hb
  exact (linkRequirements_spec b index es).conseq (fun _ h => h) (fun _ b' h => ho b b' hb h)
    (fun e b' h => her b e b' hb h) b rfl

structure SerialStep (b : ActionGraphBuilder A) (sources : List Nat) (previous : Nat)
    (b' : ActionGraphBuilder A) : Prop where
  nodes : b'.graph.nodes = b.graph.nodes
  edges : ∀ edge ∈ b'.graph.edges, edge ∈ b.graph.edges ∨
    (edge ∈ b'.serialEdges ∧ ∃ index ∈ sources, edge = (index, previous))
  edges_mono : b.graph.edges ⊆ b'.graph.edges
  serial : ∀ edge ∈ b'.serialEdges, edge ∈ b.serialEdges ∨
    (edge ∈ b'.graph.edges ∧ ∃ index ∈ sources, edge = (index, previous))
  serial_mono : b.serialEdges ⊆ b'.serialEdges
  rest : b' = { b with graph := b'.graph, serialEdges := b'.serialEdges }

lemma SerialStep.refl (b : ActionGraphBuilder A) (ss : List Nat) (ps : Nat) :
    SerialStep b ss ps b :=
  ⟨rfl, fun _ h => .inl h, List.Subset.refl _, fun _ h => .inl h, List.Subset.refl _, rfl⟩

lemma tryLinkRequirements_spec (b : ActionGraphBuilder A) (index ps : Nat) :
    SerialStep b [index] ps (b.tryLinkRequirements ps index) := by
  unfold tryLinkRequirements
  split_ifs
  · exact SerialStep.refl b _ _
  · cases ha : b.graph.addEdge index ps with
    | none => exact SerialStep.refl b _ _
    | some g =>
      obtain ⟨-, -, hnd, hes⟩ := addEdge_eq_some ha
      refine ⟨hnd, fun e he => ?_, ?_, fun e he => ?_, ?_, rfl⟩
      · change e ∈ g.edges at he
        rw [hes] at he
        rcases mem_append.mp he with ho | hn
        · exact .inl ho
        · exact .inr ⟨mem_append_right _ hn, index, mem_singleton_self index, mem_singleton.mp hn⟩
      · change b.graph.edges ⊆ g.edges
        rw [hes]
        exact subset_append_left _ _
      · rcases mem_append.mp he with ho | hn
        · exact .inl ho
        · refine .inr ⟨?_, index, mem_singleton_self index, mem_singleton.mp hn⟩
          change e ∈ g.edges
          rw [hes]
          exact mem_append_right _ hn
      · exact subset_append_left _ _

lemma SerialStep.trans {ps : Nat} {ss : List Nat}
    (h : SerialStep b [index] ps b') (h' : SerialStep b' ss ps b'') :
    SerialStep b (index :: ss) ps b'' := by
  refine ⟨h'.nodes.trans h.nodes, fun e he => ?_, List.Subset.trans h.edges_mono h'.edges_mono,
    fun e he => ?_, List.Subset.trans h.serial_mono h'.serial_mono, ?_⟩
  · rcases h'.edges e he with ho | ⟨hs, i, hi, rfl⟩
    · rcases h.edges e ho with ho | ⟨hs, i, hi, rfl⟩
      · exact .inl ho
      · exact .inr ⟨h'.serial_mono hs, i, mem_cons.mpr (.inl (mem_singleton.mp hi)), rfl⟩
    · exact .inr ⟨hs, i, mem_cons_of_mem _ hi, rfl⟩
  · rcases h'.serial e he with ho | ⟨hed, i, hi, rfl⟩
    · rcases h.serial e ho with ho | ⟨hed, i, hi, rfl⟩
      · exact .inl ho
      · exact .inr ⟨h'.edges_mono hed, i, mem_cons.mpr (.inl (mem_singleton.mp hi)), rfl⟩
    · exact .inr ⟨hed, i, mem_cons_of_mem _ hi, rfl⟩
  · rw [h'.rest, h.rest]

lemma foldl_tryLinkRequirements_spec (b : ActionGraphBuilder A) (ss : List Nat) (ps : Nat) :
    SerialStep b ss ps (ss.foldl (tryLinkRequirements ps) b) := by
  induction ss generalizing b with
  | nil => exact SerialStep.refl b _ _
  | cons index ss ih =>
    exact (tryLinkRequirements_spec b index ps).trans (ih _)

lemma serialSubtree_reach (b : ActionGraphBuilder A) (k : Nat) (st o : List Nat)
    (h : index ∈ b.serialSubtree k st o) :
    index ∈ o ∨ ∃ a ∈ st, Relation.ReflTransGen (fun i j => j ∈ b.requiredTasks i) a index := by
  induction k generalizing st o with
  | zero => exact .inl h
  | succ k ih =>
    cases st with
    | nil => exact .inl h
    | cons f st =>
      unfold serialSubtree at h
      split_ifs at h with hsn
      · rcases ih st o h with ho | ⟨a, hs, hr⟩
        · exact .inl ho
        · exact .inr ⟨a, mem_cons_of_mem _ hs, hr⟩
      · rcases ih _ _ h with ho | ⟨a, hs, hr⟩
        · rcases mem_append.mp ho with ho | hn
          · exact .inl ho
          · rw [mem_singleton.mp hn]
            exact .inr ⟨f, mem_cons_self, .refl⟩
        · rcases mem_append.mp hs with hc | hrs
          · exact .inr ⟨f, mem_cons_self, .head hc hr⟩
          · exact .inr ⟨a, mem_cons_of_mem _ hrs, hr⟩

lemma linkSerialRequirements_spec (b : ActionGraphBuilder A) (index ps : Nat) :
    ∃ ss, SerialStep b ss ps (b.linkSerialRequirements index ps) ∧
      ∀ s ∈ ss, Relation.ReflTransGen (fun i j => j ∈ b.requiredTasks i) index s := by
  refine ⟨_, foldl_tryLinkRequirements_spec b _ ps, fun s hs => ?_⟩
  rcases serialSubtree_reach b _ _ _ hs with hn | ⟨a, hst, hr⟩
  · cases hn
  · rwa [mem_singleton.mp hst] at hr

/-- The plugin asks for the other toolchain to be set up first. -/
def ToolchainRequires (env : BuilderEnv A) (id requireId : Id) : Prop :=
  ∃ plugin project output, env.loadToolchain id = .ok plugin ∧
    plugin.defineRequirements project = .ok output ∧ output.forSetupToolchain = true ∧
    requireId ∈ output.requires ∧ requireId ≠ id

def layer : ActionNode → Nat
  | .runTask _ => 4
  | .installDependencies _ => 3
  | .setupEnvironment _ => 2
  | .setupToolchain _ => 1
  | .syncProject _ => 1
  | _ => 0

def Allowed (env : BuilderEnv A) : ActionNode → ActionNode → Prop
  | .runTask _, .runTask _ => True
  | .syncProject _, .syncProject _ => True
  | .setupToolchain spec, .setupToolchain other => ToolchainRequires env spec.id other.id
  | s, target => layer target < layer s

variable {s : ActionNode}

lemma Allowed.layer_le {env : BuilderEnv A} {t : ActionNode} (h : Allowed env s t) :
    layer t ≤ layer s := by
  cases s <;> cases t <;> first | exact Nat.le_of_lt h | exact Nat.le_refl _

lemma Allowed.of_runTask {env : BuilderEnv A} (h : Allowed env s (.runTask m)) :
    ∃ n, s = .runTask n := by
  have hl := h.layer_le
  cases s with
  | runTask n => exact ⟨n, rfl⟩
  | _ => exact absurd hl (by simp [layer])

/-- What every builder state keeps. -/
structure WellFormed (env : BuilderEnv A) (b : ActionGraphBuilder A) : Prop where
  nodup : b.graph.nodes.Nodup
  allowed : ∀ index depIndex source target, (index, depIndex) ∈ b.graph.edges →
    b.graph.nodes[index]? = some source → b.graph.nodes[depIndex]? = some target →
    Allowed env source target
  edges : ∀ edge ∈ b.graph.edges, edge ∈ b.requirements ∨ edge ∈ b.serialEdges
  requirements : ∀ edge ∈ b.requirements, edge ∈ b.graph.edges
  serialEdges : ∀ edge ∈ b.serialEdges, edge ∈ b.graph.edges ∧
    ∃ n m, TaskAt b edge.1 n ∧ TaskAt b edge.2 m

lemma wellFormed_new (env : BuilderEnv A) (a : Option A) : WellFormed env { affected := a } :=
  ⟨nodup_nil, by simp [empty], by simp [empty], by simp, by simp⟩

section

variable {env : BuilderEnv A}

variable {j : Nat}

lemma exists_target_node (h : (index, j) ∈ b.graph.edges) : ∃ t, b.graph.nodes[j]? = some t :=
  ⟨_, getElem?_eq_getElem (b.graph.edges_lt _ h).2⟩

variable (h : WellFormed env b) (hr : Relation.ReflTransGen (EdgeRel b.graph.edges) index j)

include h hr

lemma WellFormed.layer_le {t : ActionNode} (hs : b.graph.nodes[index]? = some s)
    (ht : b.graph.nodes[j]? = some t) : layer t ≤ layer s := by
  induction hr using Relation.ReflTransGen.head_induction_on generalizing s with
  | refl =>
    rw [hs] at ht
    cases ht
    exact Nat.le_refl _
  | head hed _ ih =>
    obtain ⟨next, hn⟩ := exists_target_node hed
    exact (ih hn).trans (h.allowed _ _ _ _ hed hs hn).layer_le

lemma WellFormed.reach_task
    (hm : TaskAt b j m) : ∃ n, TaskAt b index n ∧ Relation.ReflTransGen (HasEdge b) n m := by
  induction hr using Relation.ReflTransGen.head_induction_on with
  | refl => exact ⟨m, hm, .refl⟩
  | @head index next hed _ ih =>
    obtain ⟨n', hn', hp⟩ := ih
    have hs := getElem?_eq_getElem (b.graph.edges_lt _ hed).1
    obtain ⟨n, hn⟩ := (h.allowed _ _ _ _ hed hs hn').of_runTask
    rw [hn] at hs
    exact ⟨n, hs, .head ⟨index, next, hs, hn', hed⟩ hp⟩

lemma WellFormed.reach_toolchain {spec o : ToolchainSpec}
    (hs : b.graph.nodes[index]? = some (.setupToolchain spec))
    (ho : b.graph.nodes[j]? = some (.setupToolchain o)) :
    Relation.ReflTransGen (ToolchainRequires env) spec.id o.id := by
  induction hr using Relation.ReflTransGen.head_induction_on generalizing spec with
  | refl =>
    rw [hs] at ho
    cases ho
    exact .refl
  | head hed hrs ih =>
    obtain ⟨next, hn⟩ := exists_target_node hed
    have ha := h.allowed _ _ _ _ hed hs hn
    have hl := h.layer_le hrs hn ho
    cases next with
    | setupToolchain s => exact .head ha (ih hn)
    | runTask | installDependencies | setupEnvironment =>
      exact absurd ha.layer_le (by simp [layer])
    | syncProject _ => exact absurd ha (Nat.lt_irrefl 1)
    | _ => exact absurd hl (by simp [layer])

end

end Moon.Proofs.Builder
