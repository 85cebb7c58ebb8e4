import Moon.Proofs.Builder.Graph
import Moon.RunTasks

/-! # Setup actions leave tasks alone -/

namespace Moon.Proofs.Builder

open Moon.Lib ActionGraphBuilder List Option

variable {A : Type} {env : BuilderEnv A}

variable {node : ActionNode} {index : Nat} {b : ActionGraphBuilder A}

lemma getElem?_addNode (h : index < b.graph.nodes.length) :
    (b.graph.addNode node).nodes[index]? = b.graph.nodes[index]? :=
  getElem?_append_left h

lemma WellFormed.addNode (h : WellFormed env b)
    (hnw : node ∉ b.graph.nodes) : WellFormed env { b with graph := b.graph.addNode node } := by
  refine ⟨?_, ?_, h.edges, h.requirements, ?_⟩
  · change (b.graph.nodes ++ [node]).Nodup
    rw [nodup_append_comm]
    exact nodup_cons.mpr ⟨hnw, h.nodup⟩
  · intro i j source t hed hs ht
    have hl := b.graph.edges_lt _ hed
    rw [getElem?_addNode hl.1] at hs
    rw [getElem?_addNode hl.2] at ht
    exact h.allowed i j source t hed hs ht
  · intro e hed
    obtain ⟨hme, n, m, hn, hm⟩ := h.serialEdges e hed
    refine ⟨hme, n, m, ?_, ?_⟩
    · exact (getElem?_addNode hn.lt).trans hn
    · exact (getElem?_addNode hm.lt).trans hm

variable {es : List Nat} {b' : ActionGraphBuilder A}

lemma WellFormed.linkStep (h : WellFormed env b) (hst : LinkStep b index es b')
    (ha : ∀ d ∈ es, ∀ source t, b.graph.nodes[index]? = some source →
      b.graph.nodes[d]? = some t → Allowed env source t) : WellFormed env b' := by
  have hsr : b'.serialEdges = b.serialEdges := by rw [hst.rest]
  refine ⟨hst.nodes ▸ h.nodup, ?_, ?_, ?_, ?_⟩
  · intro i j source t hed hs ht
    rw [hst.nodes] at hs ht
    rcases (hst.edges (i, j)).mp hed with ho | ⟨k, hk, heq⟩
    · exact h.allowed i j source t ho hs ht
    · obtain ⟨rfl, rfl⟩ := Prod.mk.inj heq
      exact ha j hk source t hs ht
  · intro e hed
    rw [hst.requirements, hsr]
    rcases (hst.edges e).mp hed with ho | hnw
    · exact (h.edges e ho).imp .inl id
    · exact .inl (.inr hnw)
  · intro e hed
    rw [hst.edges]
    exact ((hst.requirements e).mp hed).imp (h.requirements e) id
  · intro e hed
    rw [hsr] at hed
    obtain ⟨hme, n, m, hn, hm⟩ := h.serialEdges e hed
    unfold TaskAt
    rw [hst.nodes]
    exact ⟨(hst.edges e).mpr (.inl hme), n, m, hn, hm⟩

def ProjectMark (env : BuilderEnv A) (before after : Option A) : Prop :=
  ∃ project marks ms', before = some marks ∧
    env.tracker.affectProject marks project = .ok (some ms') ∧ after = some ms'

/-- Only actions other than tasks were added, with their edges. -/
structure SetupFrame (env : BuilderEnv A) (b b' : ActionGraphBuilder A) : Prop where
  nodes : ∃ extra, b'.graph.nodes = b.graph.nodes ++ extra ∧ ∀ node ∈ extra, node.isRunTask = false
  edges : ∀ edge ∈ b'.graph.edges, edge ∈ b.graph.edges ∨
    ∃ node, b'.graph.nodes[edge.1]? = some node ∧ node.isRunTask = false
  edges_mono : b.graph.edges ⊆ b'.graph.edges
  requirements : ∀ edge ∈ b'.requirements, edge ∈ b.requirements ∨
    ∃ node, b'.graph.nodes[edge.1]? = some node ∧ node.isRunTask = false
  requirements_mono : b.requirements ⊆ b'.requirements
  marks : Relation.ReflTransGen (ProjectMark env) b.affected b'.affected
  rest : b' = { b with
    graph := b'.graph, requirements := b'.requirements, affected := b'.affected }

lemma SetupFrame.refl (b : ActionGraphBuilder A) : SetupFrame env b b :=
  ⟨⟨[], by simp, by simp⟩, fun _ h => .inl h, List.Subset.refl _, fun _ h => .inl h,
    List.Subset.refl _, .refl, rfl⟩

lemma SetupFrame.grows (h : SetupFrame env b b') : Grows b b' := by
  obtain ⟨e, hex, -⟩ := h.nodes
  refine ⟨⟨e, hex.symm⟩, h.edges_mono, h.requirements_mono, ?_⟩
  rw [h.rest]
  exact List.Subset.refl _

lemma SetupFrame.trans {b'' : ActionGraphBuilder A} (h : SetupFrame env b b')
    (h' : SetupFrame env b' b'') : SetupFrame env b b'' := by
  have hk (e : Nat × Nat)
      (hnd : ∃ node, b'.graph.nodes[e.1]? = some node ∧ node.isRunTask = false) :
      ∃ node, b''.graph.nodes[e.1]? = some node ∧ node.isRunTask = false := by
    obtain ⟨node, hnd, hkn⟩ := hnd
    exact ⟨node, h'.grows.getElem? hnd, hkn⟩
  refine ⟨?_, fun e hed => ?_, List.Subset.trans h.edges_mono h'.edges_mono,
    fun e hed => ?_, List.Subset.trans h.requirements_mono h'.requirements_mono,
    h.marks.trans h'.marks, ?_⟩
  · obtain ⟨extra, hnds, hex⟩ := h.nodes
    obtain ⟨e', hn', he'⟩ := h'.nodes
    refine ⟨extra ++ e', by rw [hn', hnds, append_assoc], fun node hnd => ?_⟩
    exact (mem_append.mp hnd).elim (hex node) (he' node)
  · rcases h'.edges e hed with ho | hn
    · exact (h.edges e ho).imp id (hk e)
    · exact .inr hn
  · rcases h'.requirements e hed with ho | hn
    · exact (h.requirements e ho).imp id (hk e)
    · exact .inr hn
  · rw [h'.rest, h.rest]

section

variable (h : SetupFrame env b b')

include h

lemma SetupFrame.taskAt_iff (index : Nat) (n : RunTaskNode) :
    TaskAt b' index n ↔ TaskAt b index n := by
  refine ⟨fun ht => ?_, fun ht => h.grows.getElem? ht⟩
  obtain ⟨extra, hn, hex⟩ := h.nodes
  unfold TaskAt at ht ⊢
  rw [hn] at ht
  by_cases hl : index < b.graph.nodes.length
  · rwa [getElem?_append_left hl] at ht
  · rw [getElem?_append_right (Nat.le_of_not_lt hl)] at ht
    exact absurd (hex _ (mem_of_getElem? ht)) (by simp [ActionNode.isRunTask])

lemma SetupFrame.linked_of {ps ps' : List (Nat × Nat)}
    (hp : ∀ e ∈ ps', e ∈ ps ∨ ∃ node, b'.graph.nodes[e.1]? = some node ∧ node.isRunTask = false)
    {n m : RunTaskNode} (hl : Linked b' ps' n m) : Linked b ps n m := by
  obtain ⟨i, j, hi, hj, hm⟩ := hl
  refine ⟨i, j, (h.taskAt_iff i n).mp hi, (h.taskAt_iff j m).mp hj, ?_⟩
  rcases hp _ hm with ho | ⟨node, hn, hk⟩
  · exact ho
  · rw [show b'.graph.nodes[i]? = some (.runTask n) from hi] at hn
    cases hn
    cases hk

lemma SetupFrame.hasNode_iff (n : RunTaskNode) :
    HasNode b' n ↔ HasNode b n := by
  refine ⟨fun hn => ?_, h.grows.hasNode⟩
  obtain ⟨index, hi⟩ := mem_iff_getElem?.mp hn
  exact ((h.taskAt_iff index n).mp hi).hasNode

lemma SetupFrame.hasEdge_iff (n m : RunTaskNode) :
    HasEdge b' n m ↔ HasEdge b n m :=
  ⟨h.linked_of h.edges, h.grows.hasEdge⟩

lemma SetupFrame.hasRequirement_iff (n m : RunTaskNode) :
    HasRequirement b' n m ↔ HasRequirement b n m :=
  ⟨h.linked_of h.requirements, h.grows.hasRequirement⟩

end

def NoCycle (env : BuilderEnv A) (e : ActionGraphError) : Prop :=
  Acyclic (ToolchainRequires env) → e.isWouldCycle = false

/-- Setting up from `b` adds no task and cannot fail with a cycle. -/
def SetupAt (env : BuilderEnv A) (b : ActionGraphBuilder A) {α : Type} (x : BuildM A α)
    (R : α → ActionGraphBuilder A → Prop) : Prop :=
  WellFormed env b → Triple (fun s => s = b) x
    (fun r b' => WellFormed env b' ∧ SetupFrame env b b' ∧ R r b') (fun e _ => NoCycle env e)

namespace SetupAt

variable {α β : Type}

variable {R : α → ActionGraphBuilder A → Prop}

theorem pure {r : α} (h : R r b) : SetupAt env b (pure r) R := by
  intro hw
  apply Triple.pure
  rintro s rfl
  exact ⟨hw, SetupFrame.refl s, h⟩

theorem throw {e : ActionGraphError} (h : e.isWouldCycle = false) : SetupAt env b (throw e) R :=
  fun _ => Triple.throw (fun _ _ _ => h)

variable {x : BuildM A α} {f : α → BuildM A β}

theorem bind {R' : β → ActionGraphBuilder A → Prop} (hx : SetupAt env b x R)
    (hf : ∀ r b', SetupFrame env b b' → R r b' → SetupAt env b' (f r) R') :
    SetupAt env b (x >>= f) R' := by
  intro hw
  apply Triple.bind_at (hx hw)
  rintro r b' ⟨hw', hfr, hr⟩
  apply (hf r b' hfr hr hw').post _
  rintro r' b'' ⟨hw'', hf', hr'⟩
  exact ⟨hw'', hfr.trans hf', hr'⟩

theorem get_bind {f : ActionGraphBuilder A → BuildM A β}
    {R : β → ActionGraphBuilder A → Prop} (h : SetupAt env b (f b) R) :
    SetupAt env b (get >>= f) R := by
  intro hw
  apply Triple.get_bind
  rintro s rfl
  exact h hw

theorem orFail_bind {ε : Type} {w : ε → ActionGraphError} {result : Except ε α}
    {R : β → ActionGraphBuilder A → Prop} (hwr : ∀ e, (w e).isWouldCycle = false)
    (h : ∀ r, result = .ok r → SetupAt env b (f r) R) :
    SetupAt env b (orFail w result >>= f) R := by
  intro hw
  exact Triple.orFail_bind (fun r hr => h r hr hw) (fun e _ _ _ => hwr e)

theorem ite {c : Prop} [Decidable c] {y : BuildM A α} (hx : c → SetupAt env b x R)
    (hy : ¬ c → SetupAt env b y R) : SetupAt env b (if c then x else y) R :=
  fun hw => Triple.ite (fun hc => hx hc hw) (fun hc => hy hc hw)

theorem conseq {R' : α → ActionGraphBuilder A → Prop} (h : SetupAt env b x R)
    (hR : ∀ r b', SetupFrame env b b' → R r b' → R' r b') : SetupAt env b x R' :=
  fun hw => (h hw).post (fun r b' h => ⟨h.1, h.2.1, hR r b' h.2.1 h.2.2⟩)

end SetupAt

lemma insertNode_spec (hn : node ∉ b.graph.nodes) (hk : node.isRunTask = false) :
    SetupAt env b (insertNode node) (fun index b' =>
      b'.graph.nodes[index]? = some node ∧ b'.graph.edges = b.graph.edges ∧
        index = b.graph.nodes.length) := by
  intro hw
  unfold insertNode
  apply Triple.get_bind
  rintro s rfl
  apply Triple.modify_bind (M := fun b' => b' = { s with graph := s.graph.addNode node })
  · rintro s' rfl
    rfl
  · apply Triple.pure
    rintro b' rfl
    refine ⟨hw.addNode hn, ?_, ?_, rfl, rfl⟩
    · refine ⟨⟨[node], rfl, ?_⟩, fun _ h => .inl h, List.Subset.refl _, fun _ h => .inl h,
        List.Subset.refl _, .refl, rfl⟩
      intro o ho
      rw [mem_singleton.mp ho]
      exact hk
    · exact getElem?_concat_length

lemma getIndexFromNode_eq_some (h : b.getIndexFromNode node = some index) :
    b.graph.nodes[index]? = some node := by
  have hf : b.graph.nodes.findIdx? (· == node) = some index := h
  obtain ⟨hl, heq, -⟩ := findIdx?_eq_some_iff_getElem.mp hf
  rw [getElem?_eq_getElem hl, eq_of_beq heq]

lemma getIndexFromNode_eq_none (h : b.getIndexFromNode node = none) : node ∉ b.graph.nodes := by
  intro hm
  have hf : b.graph.nodes.findIdx? (· == node) = none := h
  have hn := findIdx?_eq_none_iff.mp hf node hm
  simp at hn

lemma insertNodeIfMissing_spec (hk : node.isRunTask = false) :
    SetupAt env b (insertNodeIfMissing node) (fun index b' =>
      b'.graph.nodes[index]? = some node ∧ b'.graph.edges = b.graph.edges) := by
  unfold insertNodeIfMissing
  apply SetupAt.get_bind
  cases hi : b.getIndexFromNode node with
  | some index => exact SetupAt.pure ⟨getIndexFromNode_eq_some hi, rfl⟩
  | none =>
    exact (insertNode_spec (getIndexFromNode_eq_none hi) hk).conseq (fun _ _ _ h => ⟨h.1, h.2.1⟩)

variable {source : ActionNode}

lemma LinkStep.setupFrame (h : LinkStep b index es b')
    (hs : b.graph.nodes[index]? = some source) (hk : source.isRunTask = false) :
    SetupFrame env b b' := by
  have hn (e : Nat × Nat) (hed : ∃ d ∈ es, e = (index, d)) :
      ∃ node, b'.graph.nodes[e.1]? = some node ∧ node.isRunTask = false := by
    obtain ⟨j, -, rfl⟩ := hed
    exact ⟨source, h.nodes ▸ hs, hk⟩
  refine ⟨⟨[], by rw [h.nodes, append_nil], by simp⟩, fun e hed => ?_,
    fun e hed => (h.edges e).mpr (.inl hed), fun e hed => ?_,
    fun e hed => (h.requirements e).mpr (.inl hed), ?_, ?_⟩
  · exact ((h.edges e).mp hed).imp id (hn e)
  · exact ((h.requirements e).mp hed).imp id (hn e)
  · rw [h.rest]
  · rw [h.rest]

def Linkable (env : BuilderEnv A) (b : ActionGraphBuilder A) (source : ActionNode)
    (index depIndex : Nat) : Prop :=
  ∃ target, b.graph.nodes[depIndex]? = some target ∧ Allowed env source target ∧
    (Acyclic (ToolchainRequires env) →
      ¬ Relation.ReflTransGen (EdgeRel b.graph.edges) depIndex index)

lemma linkRequirements_setup (hs : b.graph.nodes[index]? = some source)
    (hk : source.isRunTask = false) (htg : ∀ d ∈ es, Linkable env b source index d) :
    SetupAt env b (linkRequirements index es) (fun _ b' => LinkStep b index es b') := by
  intro hw
  apply Triple.linkRequirements
  · rintro s b' rfl hst
    refine ⟨hw.linkStep hst ?_, hst.setupFrame hs hk, hst⟩
    intro j hj source' target' hs' ht'
    obtain ⟨t, ht, ha, -⟩ := htg j hj
    rw [hs] at hs'
    rw [ht] at ht'
    cases hs'
    cases ht'
    exact ha
  · rintro s e b' rfl ⟨j, hj, hr⟩ hac
    obtain ⟨t, ht, -, hb⟩ := htg j hj
    exact absurd (hr (List.getElem?_eq_some_iff.mp hs).1
      (List.getElem?_eq_some_iff.mp ht).1) (hb hac)

variable {d : Nat} {P : ActionNode → Prop} {es : List (Option Nat)}

lemma WellFormed.linkable_lower (h : WellFormed env b) {t : ActionNode}
    (hs : b.graph.nodes[index]? = some source)
    (ht : b.graph.nodes[d]? = some t) (hl : layer t < layer source) :
    Linkable env b source index d := by
  refine ⟨t, ht, ?_, fun _ hr => ?_⟩
  · cases source <;> cases t <;> first | exact hl | exact absurd hl (by simp [layer])
  · exact absurd (h.layer_le hr ht hs) (by omega)

lemma syncWorkspace_spec :
    SetupAt env b (syncWorkspace env) (fun r b' => b'.graph.edges = b.graph.edges ∧
      ∀ index, r = some index → b'.graph.nodes[index]? = some .syncWorkspace) := by
  unfold syncWorkspace
  apply SetupAt.ite
  · intro _
    exact SetupAt.pure ⟨rfl, fun index h => by cases h⟩
  · intro _
    apply SetupAt.bind (insertNodeIfMissing_spec rfl)
    rintro index b' - ⟨hn, hes⟩
    refine SetupAt.pure ⟨hes, fun index' h => ?_⟩
    cases h
    exact hn

structure Marked (affect : A → Except String (Option A)) (b b' : ActionGraphBuilder A) :
    Prop where
  step : b'.affected = b.affected ∨ ∃ marks ms', b.affected = some marks ∧
    affect marks = .ok (some ms') ∧ b'.affected = some ms'
  rest : b' = { b with affected := b'.affected }

lemma checkAffected_spec (reqs : RunRequirements) (i : A → Bool)
    (a : A → Except String (Option A)) :
    Triple (fun s => s = b) (checkAffected reqs i a)
      (fun _ b' => Marked a b b') (fun e _ => e.isWouldCycle = false) := by
  have hs (answer : Bool) : Triple (fun s => s = b) (pure answer : BuildM A Bool)
      (fun _ b' => Marked a b b') (fun e _ => e.isWouldCycle = false) := by
    apply Triple.pure
    rintro s rfl
    exact ⟨.inl rfl, rfl⟩
  unfold checkAffected
  apply Triple.get_bind
  rintro s rfl
  cases hm : s.affected with
  | none => exact hs true
  | some marks =>
    apply Triple.ite
    · intro _
      exact hs true
    · intro _
      apply Triple.orFail_bind
      · intro answer ha
        cases answer with
        | none => exact hs false
        | some ms' =>
          apply Triple.modify_bind (M := fun b' => b' = { s with affected := some ms' })
          · rintro s' rfl
            rfl
          · apply Triple.pure
            rintro b' rfl
            exact ⟨.inr ⟨marks, ms', hm, ha, rfl⟩, rfl⟩
      · intro error _ _
        rfl

lemma Marked.wellFormed {a : A → Except String (Option A)}
    (h : Marked a b b') (hw : WellFormed env b) : WellFormed env b' := by
  rw [h.rest]
  exact ⟨hw.nodup, hw.allowed, hw.edges, hw.requirements, hw.serialEdges⟩

lemma isProjectAffected_spec (p : Project) (r : RunRequirements) :
    SetupAt env b (isProjectAffected env p r) (fun _ b' => b'.graph = b.graph) := by
  intro hw
  apply (checkAffected_spec r _ _).conseq (fun _ h => h) _ (fun _ _ h _ => h)
  intro _ b' hm
  refine ⟨hm.wellFormed hw, ?_, by rw [hm.rest]⟩
  have hmk : Relation.ReflTransGen (ProjectMark env) b.affected b'.affected := by
    rcases hm.step with hs | ⟨marks, ms', hb, han, ha⟩
    · rw [hs]
    · exact .single ⟨p, marks, ms', hb, han, ha⟩
  rw [hm.rest]
  exact ⟨⟨[], by simp, by simp⟩, fun _ h => .inl h, List.Subset.refl _, fun _ h => .inl h,
    List.Subset.refl _, hmk, rfl⟩

def NotRequired (b : ActionGraphBuilder A) (projectId : Id) : Prop :=
  ∀ index depIndex, (index, depIndex) ∈ b.graph.edges →
    b.graph.nodes[depIndex]? ≠ some (.syncProject projectId)

lemma NotRequired.of_edges {p : Id} (h : NotRequired b p) (hg : Grows b b')
    (hes : b'.graph.edges = b.graph.edges) : NotRequired b' p := by
  intro i j hed hn
  rw [hes] at hed
  obtain ⟨t, ht⟩ := exists_target_node hed
  rw [hg.getElem? ht] at hn
  exact h i j hed (ht.trans hn)

def Synced (cycle : List Id) (projectId : Id) (r : Option Nat) (b' : ActionGraphBuilder A) : Prop :=
  (∀ p ∈ cycle, NotRequired b' p) ∧
    ∀ index, r = some index → b'.graph.nodes[index]? = some (.syncProject projectId) ∧
      projectId ∉ cycle

lemma syncDependencies_spec {s : Project → BuildM A (Option Nat)} {c : List Id}
    (hsy : ∀ (b : ActionGraphBuilder A) pr, (∀ p ∈ c, NotRequired b p) →
      SetupAt env b (s pr) (Synced c pr.id))
    (index : Nat) (ids : List Id) (hc : ∀ p ∈ c, NotRequired b p) :
    SetupAt env b (syncDependencies env s index c ids) (fun es b' =>
      (∀ p ∈ c, NotRequired b' p) ∧ ∀ d ∈ es, d ≠ index ∧
        ∃ p, b'.graph.nodes[d]? = some (.syncProject p) ∧ p ∉ c) := by
  induction ids generalizing b with
  | nil => exact SetupAt.pure ⟨hc, by simp⟩
  | cons id ids ih =>
    unfold syncDependencies
    apply SetupAt.ite
    · intro _
      exact ih hc
    · intro _
      apply SetupAt.orFail_bind (fun _ => rfl)
      intro pr _
      apply SetupAt.bind (hsy b pr hc)
      rintro r b₁ - ⟨hc₁, hr⟩
      apply SetupAt.bind (ih hc₁)
      rintro es b₂ hfr ⟨hc₂, hes⟩
      refine SetupAt.pure ⟨hc₂, fun d hm => ?_⟩
      rcases mem_append.mp hm with hf | hrs
      · obtain ⟨hs, hne⟩ := mem_filter.mp hf
        obtain ⟨hnd, hn⟩ := hr d (mem_toList.mp hs)
        exact ⟨fun heq => by simp [heq] at hne, pr.id, hfr.grows.getElem? hnd, hn⟩
      · exact hes d hrs

lemma internalSyncProject_spec (reqs : RunRequirements) (n : Nat) (c : List Id)
    (pr : Project) (hc : ∀ p ∈ c, NotRequired b p) :
    SetupAt env b (internalSyncProject env reqs n c pr) (Synced c pr.id) := by
  induction n generalizing b c pr with
  | zero => exact SetupAt.throw rfl
  | succ n ih =>
    unfold internalSyncProject
    apply SetupAt.ite
    · intro _
      exact SetupAt.pure ⟨hc, fun index h => by cases h⟩
    · intro hg
      have hnt : pr.id ∉ c := by
        intro hm
        simp [hm] at hg
      apply SetupAt.bind (isProjectAffected_spec _ _)
      intro affected b₁ hf₁ hg₁
      have hc₁ (p : Id) (hp : p ∈ c) : NotRequired b₁ p :=
        (hc p hp).of_edges hf₁.grows (by rw [hg₁])
      apply SetupAt.ite
      · intro _
        exact SetupAt.pure ⟨hc₁, fun index h => by cases h⟩
      · intro _
        apply SetupAt.bind syncWorkspace_spec
        rintro w b₂ hf₂ ⟨he₂, hw⟩
        have hc₂ (p : Id) (hp : p ∈ c) : NotRequired b₂ p := (hc₁ p hp).of_edges hf₂.grows he₂
        apply SetupAt.get_bind
        cases hid : b₂.getIndexFromNode (.syncProject pr.id) with
        | some index =>
          refine SetupAt.pure ⟨hc₂, fun i' h => ?_⟩
          cases h
          exact ⟨getIndexFromNode_eq_some hid, hnt⟩
        | none =>
          have hn := getIndexFromNode_eq_none hid
          apply SetupAt.bind (insertNode_spec hn rfl)
          rintro index b₃ hf₃ ⟨hnd, he₃, -⟩
          -- the new node has no incoming edges, and gets none from the projects below it
          have hc₃ (p : Id) (hp : p ∈ pr.id :: c) : NotRequired b₃ p := by
            rcases mem_cons.mp hp with rfl | hp
            · apply NotRequired.of_edges _ hf₃.grows he₃
              intro i j _ hj
              exact hn (mem_of_getElem? hj)
            · exact (hc₂ p hp).of_edges hf₃.grows he₃
          apply SetupAt.bind (syncDependencies_spec (fun b pr hc => ih _ pr hc) index _ hc₃)
          rintro es b₄ hf₄ ⟨hc₄, he₄⟩
          have hn₄ := hf₄.grows.getElem? hnd
          have hws₄ (i : Nat) (hi : i ∈ w.toList) : b₄.graph.nodes[i]? = some .syncWorkspace :=
            hf₄.grows.getElem? (hf₃.grows.getElem? (hw i (mem_toList.mp hi)))
          intro hw₄
          refine (SetupAt.bind (linkRequirements_setup hn₄ rfl ?_) ?_) hw₄
          · intro d hm
            rcases mem_append.mp hm with hs | hd
            · exact hw₄.linkable_lower hn₄ (hws₄ d hs) Nat.one_pos
            · obtain ⟨hne, p, hp, -⟩ := he₄ d hd
              refine ⟨_, hp, trivial, fun _ hr => ?_⟩
              rcases hr.cases_tail with heq | ⟨last, -, hl⟩
              · exact hne heq.symm
              · exact hc₄ pr.id mem_cons_self last _ hl hn₄
          · rintro _ b₅ hf₅ hst
            refine SetupAt.pure ⟨fun p hp i j hed hj => ?_, fun i' h => ?_⟩
            · rw [hst.nodes] at hj
              rcases (hst.edges (i, j)).mp hed with ho | ⟨k, hk, heq⟩
              · exact hc₄ p (mem_cons_of_mem _ hp) i j ho hj
              · obtain ⟨rfl, rfl⟩ := Prod.mk.inj heq
                rcases mem_append.mp hk with hs | hd
                · rw [hws₄ j hs] at hj
                  cases hj
                · obtain ⟨-, p', hp', hn'⟩ := he₄ j hd
                  rw [hp'] at hj
                  cases hj
                  exact hn' (mem_cons_of_mem _ hp)
            · cases h
              exact ⟨hf₅.grows.getElem? hn₄, hnt⟩

lemma getSpec_id {id : Id} {p : Option Project} {s : ToolchainSpec}
    (h : env.getSpec id p = some s) : s.id = id := by
  have hw (h : env.getWorkspaceSpec id = some s) : s.id = id := by
    obtain ⟨config, -, rfl⟩ := map_eq_some_iff.mp h
    rfl
  cases p with
  | none => exact hw h
  | some p =>
    simp only [BuilderEnv.getSpec, BuilderEnv.getProjectSpec] at h
    split at h
    · split_ifs at h
      split at h
      · cases h
        rfl
      · exact hw h
    · exact hw h

def Returns (P : ActionNode → Prop) (r : Option Nat) (b' : ActionGraphBuilder A) : Prop :=
  ∀ index, r = some index → ∃ node, b'.graph.nodes[index]? = some node ∧ P node

lemma returns_none (P : ActionNode → Prop) : Returns P none b := fun _ h => by cases h

lemma returns_some (hn : b.graph.nodes[index]? = some node)
    (hP : P node) : Returns P (some index) b := by
  rintro _ ⟨⟩
  exact ⟨node, hn, hP⟩

lemma Returns.mono {P' : ActionNode → Prop} {r : Option Nat}
    (h : Returns P r b) (hg : Grows b b') (hP : ∀ node, P node → P' node) : Returns P' r b' := by
  intro index hi
  obtain ⟨node, hn, hk⟩ := h index hi
  exact ⟨node, hg.getElem? hn, hP node hk⟩

lemma requireToolchains_spec {se : ToolchainSpec → BuildM A (Option Nat)}
    (hsu : ∀ (b : ActionGraphBuilder A) s, SetupAt env b (se s) (Returns (· = .setupToolchain s)))
    (s : ToolchainSpec) (p : Option Project) (c ids : List Id) :
    SetupAt env b (requireToolchains env se s p c ids) (fun es b' =>
      ∀ r ∈ es, Returns (fun node => ∃ o, node = .setupToolchain o ∧
        o.id ∈ ids ∧ o.id ≠ s.id) r b') := by
  induction ids generalizing b with
  | nil => exact SetupAt.pure (by simp)
  | cons id ids ih =>
    have hm (node : ActionNode) (h : ∃ o, node = .setupToolchain o ∧
        o.id ∈ ids ∧ o.id ≠ s.id) :
        ∃ o, node = .setupToolchain o ∧ o.id ∈ id :: ids ∧ o.id ≠ s.id := by
      obtain ⟨o, ho, hi, hn⟩ := h
      exact ⟨o, ho, mem_cons_of_mem _ hi, hn⟩
    unfold requireToolchains
    apply SetupAt.ite
    · intro _
      exact ih.conseq (fun es b' _ h r hr => (h r hr).mono (Grows.refl b') hm)
    · intro hg
      have hn : id ≠ s.id := by
        rintro rfl
        simp at hg
      cases hs : env.getSpec id p with
      | none => exact SetupAt.throw rfl
      | some re =>
        apply SetupAt.bind (hsu b re)
        intro e b₁ _ hed
        apply SetupAt.bind ih
        intro es b₂ hf hes
        refine SetupAt.pure fun r hr => ?_
        rcases mem_cons.mp hr with rfl | hr
        · apply hed.mono hf.grows
          rintro _ rfl
          rw [← getSpec_id hs] at hn ⊢
          exact ⟨re, rfl, mem_cons_self, hn⟩
        · exact (hes r hr).mono (Grows.refl b₂) hm

lemma setupProto_spec : SetupAt env b (setupProto env) (Returns (fun node => layer node = 0)) := by
  unfold setupProto
  apply SetupAt.bind (insertNodeIfMissing_spec rfl)
  rintro index b' - ⟨hn, -⟩
  exact SetupAt.pure (returns_some hn rfl)

lemma syncWorkspace_returns :
    SetupAt env b (syncWorkspace env) (Returns (fun node => layer node = 0)) :=
  syncWorkspace_spec.conseq (fun _ _ _ h index hi => ⟨_, h.2 index hi, rfl⟩)

lemma internalSetupToolchain_spec (p : Option Project) (n : Nat) (c : List Id) (s : ToolchainSpec) :
    SetupAt env b (internalSetupToolchain env p n c s) (Returns (· = .setupToolchain s)) := by
  induction n generalizing b c s with
  | zero => exact SetupAt.throw rfl
  | succ n ih =>
    unfold internalSetupToolchain
    apply SetupAt.ite
    · intro _
      exact SetupAt.pure (returns_none _)
    · intro _
      apply SetupAt.orFail_bind (fun _ => rfl)
      intro pl hp
      apply SetupAt.orFail_bind (fun _ => rfl)
      intro output hot
      apply SetupAt.bind (requireToolchains_spec (fun b s => ih _ s) s p _ _)
      intro es b₁ _ hes
      apply SetupAt.ite
      · intro _
        exact SetupAt.pure (returns_none _)
      · intro _
        apply SetupAt.bind syncWorkspace_returns
        intro w b₂ hf₂ hw
        apply SetupAt.bind (SetupAt.ite (fun _ => setupProto_spec)
          (fun _ => SetupAt.pure (returns_none _)))
        intro pr b₃ hf₃ hpr
        apply SetupAt.bind (insertNodeIfMissing_spec rfl)
        rintro index b₄ hf₄ ⟨hn, -⟩
        intro hw₄
        refine (SetupAt.bind (linkRequirements_setup hn rfl ?_) ?_) hw₄
        · intro d hm
          have hm : some d ∈ es ++ [w, pr] := by
            simpa using hm
          have hl (h : Returns (fun node => layer node = 0) (some d) b₄) :
              Linkable env b₄ (.setupToolchain s) index d := by
            obtain ⟨t, ht, hly⟩ := h d rfl
            exact hw₄.linkable_lower hn ht (hly ▸ Nat.one_pos)
          simp only [mem_append, mem_cons, not_mem_nil, or_false] at hm
          rcases hm with hrq | rfl | rfl
          · have hg := (hf₂.trans (hf₃.trans hf₄)).grows
            obtain ⟨_, ho, o, rfl, hi, hne⟩ := ((hes _ hrq).mono hg (fun _ h => h)) d rfl
            have hr : ToolchainRequires env s.id o.id := by
              split_ifs at hi with hf
              · exact ⟨pl, _, output, hp, hot, hf, hi, hne⟩
              · cases hi
            refine ⟨_, ho, hr, fun ha hrc => ha s.id ?_⟩
            exact Relation.TransGen.head'_iff.mpr ⟨o.id, hr, hw₄.reach_toolchain hrc ho hn⟩
          · exact hl (hw.mono (hf₃.trans hf₄).grows (fun _ h => h))
          · exact hl (hpr.mono hf₄.grows (fun _ h => h))
        · intro _ b₅ hf₅ _
          exact SetupAt.pure (returns_some (hf₅.grows.getElem? hn) rfl)

lemma WellFormed.linkable_returns (h : WellFormed env b) (hs : b.graph.nodes[index]? = some source)
    (hes : ∀ r ∈ es, Returns (fun node => layer node < layer source) r b) :
    ∀ d ∈ es.filterMap id, Linkable env b source index d := by
  intro d hm
  obtain ⟨r, hr, rfl⟩ := mem_filterMap.mp hm
  obtain ⟨t, ht, hl⟩ := hes _ hr d rfl
  exact h.linkable_lower hs ht hl

lemma setupToolchain_spec (n : Nat) (p : Option Project) (s : ToolchainSpec) :
    SetupAt env b (setupToolchain env n p s) (Returns (· = .setupToolchain s)) :=
  internalSetupToolchain_spec p n [] s

lemma setupEnvironment_spec (n : Nat) (s : ToolchainSpec) (root : WorkspaceRelativePath)
    (p : Option Project) :
    SetupAt env b (setupEnvironment env n s root p) (Returns (fun node => layer node = 2)) := by
  unfold setupEnvironment
  apply SetupAt.ite
  · intro _
    exact SetupAt.pure (returns_none _)
  · intro _
    apply SetupAt.orFail_bind (fun _ => rfl)
    intro plugin _
    apply SetupAt.orFail_bind (fun _ => rfl)
    intro output _
    apply SetupAt.bind (requireToolchains_spec (fun _ s => setupToolchain_spec n p s) s p _ _)
    intro es b₁ _ hes
    apply SetupAt.ite
    · intro _
      exact SetupAt.pure (returns_none _)
    · intro _
      apply SetupAt.bind syncWorkspace_returns
      intro w b₂ hf₂ hw
      apply SetupAt.bind (setupToolchain_spec n p s)
      intro t b₃ hf₃ ht
      apply SetupAt.get_bind
      cases hi : b₃.getIndexFromNode
          (.setupEnvironment ⟨p.map (·.id), root, s.id⟩) with
      | some index => exact SetupAt.pure (returns_some (getIndexFromNode_eq_some hi) rfl)
      | none =>
        apply SetupAt.bind (insertNode_spec (getIndexFromNode_eq_none hi) rfl)
        rintro index b₄ hf₄ ⟨hn, -, -⟩
        intro hw₄
        refine (SetupAt.bind (linkRequirements_setup hn rfl (hw₄.linkable_returns hn ?_)) ?_) hw₄
        · intro r hr
          simp only [mem_append, mem_cons, not_mem_nil, or_false] at hr
          rcases hr with hrq | rfl | rfl
          · apply (hes r hrq).mono (hf₂.trans (hf₃.trans hf₄)).grows
            rintro _ ⟨o, rfl, -⟩
            exact Nat.one_lt_two
          · apply hw.mono (hf₃.trans hf₄).grows
            intro node hl
            exact hl ▸ Nat.two_pos
          · apply ht.mono hf₄.grows
            rintro _ rfl
            exact Nat.one_lt_two
        · intro _ b₅ hf₅ _
          exact SetupAt.pure (returns_some (hf₅.grows.getElem? hn) rfl)

lemma mem_of_mem_head? (h : d ∈ (es.filterMap id).head?.toList) : d ∈ es.filterMap id :=
  List.mem_of_mem_head? (mem_toList.mp h)

lemma installInRoot_spec (n : Nat) (s : ToolchainSpec) (p : Option Project)
    (toolchain : ToolchainPlugin) (wo : DependenciesWorkspace) (role : DependenciesWorkspaceRole)
    {w t : Option Nat} (hw : Returns (fun node => layer node = 0) w b)
    (ht : Returns (· = .setupToolchain s) t b) :
    SetupAt env b (installInRoot env n s p toolchain wo role w
      t) (Returns (fun node => layer node < 4)) := by
  unfold installInRoot
  apply SetupAt.bind (setupEnvironment_spec n s _ _)
  intro e b₁ hf₁ hen
  have hlw {l : Nat} (hlm : 2 ≤ l) {b' : ActionGraphBuilder A} (hf : SetupFrame env b b') :
      ∀ r ∈ [t, w], Returns (fun node => layer node < l) r b' := by
    intro r hr
    simp only [mem_cons, not_mem_nil, or_false] at hr
    rcases hr with rfl | rfl
    · apply ht.mono hf.grows
      rintro _ rfl
      exact hlm
    · apply hw.mono hf.grows
      intro node hl
      omega
  apply SetupAt.ite
  · intro _
    apply SetupAt.bind (insertNodeIfMissing_spec rfl)
    rintro index b₂ hf₂ ⟨hn, -⟩
    intro hw₂
    refine (SetupAt.bind (linkRequirements_setup hn rfl (fun d hm =>
      hw₂.linkable_returns hn ?_ d (mem_of_mem_head? hm))) ?_) hw₂
    · intro r hr
      rcases mem_cons.mp hr with rfl | hr
      · apply hen.mono hf₂.grows
        intro node hl
        exact hl ▸ Nat.lt_succ_self 2
      · exact hlw (Nat.le_succ 2) (hf₁.trans hf₂) r hr
    · intro _ b₃ hf₃ _
      exact SetupAt.pure (returns_some (hf₃.grows.getElem? hn) (Nat.lt_succ_self 3))
  · intro _
    cases e with
    | none =>
      apply SetupAt.pure
      apply ht.mono hf₁.grows
      rintro _ rfl
      exact Nat.lt_of_lt_of_le Nat.one_lt_two (Nat.le_add_right 2 2)
    | some index =>
      obtain ⟨source, hs, hl⟩ := hen index rfl
      have hk : source.isRunTask = false := by
        cases source <;> first | rfl | cases hl
      intro hw₁
      refine (SetupAt.bind (linkRequirements_setup hs hk (fun d hm =>
        hw₁.linkable_returns hs ?_ d (mem_of_mem_head? hm))) ?_) hw₁
      · exact hlw (Nat.le_of_eq hl.symm) hf₁
      · intro _ b₂ hf₂ _
        exact SetupAt.pure (returns_some (hf₂.grows.getElem? hs) (by omega))

lemma installDependencies_spec (n : Nat) (s : ToolchainSpec) (p : Option Project) :
    SetupAt env b (installDependencies env n s p) (Returns (fun node => layer node < 4)) := by
  unfold installDependencies
  apply SetupAt.ite
  · intro _
    exact SetupAt.pure (returns_none _)
  · intro _
    apply SetupAt.bind syncWorkspace_returns
    intro w b₁ _ hw
    apply SetupAt.bind (setupToolchain_spec n p s)
    intro t b₂ hf₂ ht
    have hf : SetupAt env b₂ (pure t) (Returns (fun node => layer node < 4)) := by
      apply SetupAt.pure
      apply ht.mono (Grows.refl b₂)
      rintro _ rfl
      exact Nat.lt_of_lt_of_le Nat.one_lt_two (Nat.le_add_right 2 2)
    apply SetupAt.orFail_bind (fun _ => rfl)
    intro pl _
    apply SetupAt.ite
    · intro _
      exact hf
    · intro _
      apply SetupAt.orFail_bind (fun _ => rfl)
      intro wo _
      cases wo with
      | none => exact hf
      | some wo =>
        apply SetupAt.orFail_bind (fun _ => rfl)
        intro r _
        cases r with
        | none => exact hf
        | some r =>
          exact installInRoot_spec n s p pl wo r (hw.mono hf₂.grows (fun _ h => h)) ht

lemma installDependenciesByToolchains_spec (n : Nat) (p : Project) (ids : List Id) :
    SetupAt env b (installDependenciesByToolchains env n p ids) (fun i b' =>
      ∀ r ∈ i, Returns (fun node => layer node < 4) r b') := by
  induction ids generalizing b with
  | nil => exact SetupAt.pure (by simp)
  | cons id ids ih =>
    unfold installDependenciesByToolchains
    cases env.getProjectSpec id p with
    | none => exact ih
    | some s =>
      apply SetupAt.bind (installDependencies_spec n s (some p))
      intro index b₁ _ hi
      apply SetupAt.bind ih
      intro i b₂ hf hin
      refine SetupAt.pure fun r hr => ?_
      rcases mem_cons.mp hr with rfl | hr
      · exact hi.mono hf.grows (fun _ h => h)
      · exact hin r hr

def SetupNode (b : ActionGraphBuilder A) (index : Nat) : Prop :=
  ∃ node, b.graph.nodes[index]? = some node ∧ node.isRunTask = false

lemma isRunTask_of_layer (h : layer node < 4) : node.isRunTask = false := by
  cases node <;> first | rfl | exact absurd h (Nat.lt_irrefl 4)

lemma Returns.setupNode {r : Option Nat} (h : Returns (fun node => layer node < 4) r b)
    (hr : r = some index) : SetupNode b index := by
  obtain ⟨node, hn, hl⟩ := h index hr
  exact ⟨node, hn, isRunTask_of_layer hl⟩

theorem initialEdges_spec (n : Nat) (p : Project) (visit : TaskVisit) :
    SetupAt env b (initialEdges env n p visit) (fun es b' =>
      ∀ index ∈ es, SetupNode b' index) := by
  unfold initialEdges
  apply SetupAt.bind (internalSyncProject_spec visit.reqs n [] p (by simp))
  rintro projectIndex b₁ - ⟨-, hp⟩
  apply SetupAt.bind (installDependenciesByToolchains_spec n p _)
  intro installIndexes b₂ hf₂ hin
  apply SetupAt.ite
  · intro _
    apply SetupAt.bind syncWorkspace_returns
    intro w b₃ _ hw
    refine SetupAt.pure fun index hm => ?_
    apply Returns.setupNode _ (mem_toList.mp hm)
    exact hw.mono (Grows.refl b₃) (fun node hlay => by omega)
  · intro _
    refine SetupAt.pure fun index hm => ?_
    obtain ⟨r, hr, hi⟩ := mem_filterMap.mp hm
    rcases mem_cons.mp hr with rfl | hr
    · exact ⟨_, hf₂.grows.getElem? (hp index hi).1, rfl⟩
    · exact (hin r hr).setupNode hi

end Moon.Proofs.Builder
