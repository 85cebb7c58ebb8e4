import Moon.ActionGraphBuilder

/-!
# Nodes that are found again

The hash of a node depends on how it is written: on the order of its variables, and on the text
of its root.
-/

namespace Moon.Proofs

open List
open ActionNode (lookupNode)

variable {env o : EnvMap}

lemma sameEntries_cons {en f : String × Option String} (hk : ((en :: env).map Prod.fst).Nodup)
    (hf : en.1 = f.1) (h : EnvMap.sameEntries (en :: env) (f :: o)) :
    en = f ∧ env.sameEntries o := by
  simp only [EnvMap.sameEntries, length_cons, all_cons, Bool.and_eq_true, beq_iff_eq,
    Nat.add_right_cancel_iff, all_eq_true] at h ⊢
  obtain ⟨hl, hen, hr⟩ := h
  rw [hf, lookup_cons_self, Option.some_inj] at hen
  refine ⟨Prod.ext hf hen.symm, hl, fun e he => ?_⟩
  have hn : e.1 ≠ f.1 := fun heq =>
    (nodup_cons.mp hk).1 (hf ▸ heq ▸ mem_map_of_mem he)
  have hlk := hr e he
  rwa [lookup_cons, beq_eq_false_iff_ne.mpr hn] at hlk

/-- The first variables that differ have different keys, and these are written first. -/
lemma env_eq_of_sameEntries (hk : (env.map Prod.fst).Nodup) (h : env.sameEntries o)
    (hwr : env.hashWrites = o.hashWrites ∨ env.map Prod.fst = o.map Prod.fst) : env = o := by
  induction env generalizing o with
  | nil => cases o <;> simp [EnvMap.sameEntries] at h ⊢
  | cons e env ih =>
    cases o with
    | nil => simp [EnvMap.sameEntries] at h
    | cons f o =>
      have hf : e.1 = f.1 := by
        rcases hwr with hw | hm
        · exact (HashWrite.text.inj (cons.inj hw).1)
        · exact (cons.inj hm).1
      obtain ⟨rfl, hr⟩ := sameEntries_cons hk hf h
      refine congrArg _ (ih (nodup_cons.mp hk).2 hr ?_)
      exact hwr.imp (fun hw => append_cancel_left hw) (fun hm => (cons.inj hm).2)

def envOf : ActionNode → EnvMap
  | .runTask inner => inner.env
  | _ => []

/-- The nodes have the same text for a root, and the same order of variables. -/
def WrittenAlike (node other : ActionNode) : Prop :=
  node.label = other.label ∧ (envOf node).map Prod.fst = (envOf other).map Prod.fst

lemma hashWrites_eq_iff {n o : ActionNode} (hk : ((envOf n).map Prod.fst).Nodup) (h : n.isEqual o) :
    n.hashWrites = o.hashWrites ↔ WrittenAlike n o := by
  unfold ActionNode.hashWrites WrittenAlike
  rw [cons_eq_cons, HashWrite.text.injEq]
  refine and_congr_right fun _ => ?_
  cases n with
  | runTask a =>
    cases o with
    | runTask b =>
      simp only [ActionNode.isEqual, Bool.and_eq_true, beq_iff_eq, RunTaskNode.mk.injEq] at h
      simp only [ActionNode.hashFields, envOf, h.1.1, append_cancel_left_eq]
      constructor
      · exact fun hw => congrArg _ (env_eq_of_sameEntries hk h.2 (.inl hw))
      · exact fun hm => congrArg _ (env_eq_of_sameEntries hk h.2 (.inr hm))
    | _ => simp [ActionNode.isEqual] at h
  | _ => cases o <;> simp_all [ActionNode.isEqual, ActionNode.hashFields, envOf]

/-- The stream of writes of the node collides with none of the others. -/
def HashesApart {H : Type} (finish : List HashWrite → H) (nodes : List ActionNode)
    (node : ActionNode) : Prop :=
  ∀ other ∈ nodes, finish other.hashWrites = finish node.hashWrites →
    other.hashWrites = node.hashWrites

/-- Equal nodes have equal hashes, and are found, exactly if they are written alike. -/
theorem equal_nodes_found_iff {H : Type} [DecidableEq H] (finish : List HashWrite → H)
    (nodes : List ActionNode) (node : ActionNode) (hfinish : HashesApart finish nodes node)
    (hkeys : ∀ other ∈ nodes, ((envOf other).map Prod.fst).Nodup) :
    (∀ other ∈ nodes, other.isEqual node = true →
      (finish other.hashWrites = finish node.hashWrites ↔ WrittenAlike other node)) ∧
    ((lookupNode finish nodes node).isSome = true ↔
      ∃ other ∈ nodes, other.isEqual node = true ∧ WrittenAlike other node) := by
  have hh (other : ActionNode) (ho : other ∈ nodes) (h : other.isEqual node) :
      finish other.hashWrites = finish node.hashWrites ↔ WrittenAlike other node :=
    Iff.trans ⟨hfinish other ho, congrArg finish⟩ (hashWrites_eq_iff (hkeys other ho) h)
  refine ⟨hh, ?_⟩
  simp only [lookupNode, findIdx?_isSome, any_eq_true, Bool.and_eq_true, beq_iff_eq]
  refine exists_congr fun other => and_congr_right fun ho => ?_
  exact ⟨fun h => ⟨h.2, (hh other ho h.2).mp h.1⟩, fun h => ⟨(hh other ho h.1).mpr h.2, h.1⟩⟩

def rootOf : ActionNode → Option WorkspaceRelativePath
  | .installDependencies inner => some inner.root
  | .setupEnvironment inner => some inner.root
  | _ => none

lemma lookup_of_mem {en : String × Option String} (hk : (env.map Prod.fst).Nodup)
    (h : en ∈ env) : env.lookup en.1 = some en.2 := by
  induction env with
  | nil => cases h
  | cons f env ih =>
    obtain ⟨hn, hr⟩ := nodup_cons.mp hk
    rcases mem_cons.mp h with rfl | h
    · exact lookup_cons_self
    · have hf : en.1 ≠ f.1 := fun heq => hn (heq ▸ mem_map_of_mem h)
      rw [lookup_cons, beq_eq_false_iff_ne.mpr hf]
      exact ih hr h

lemma isEqual_self {n : ActionNode} (hk : ((envOf n).map Prod.fst).Nodup) : n.isEqual n := by
  cases n with
  | runTask a =>
    have hl : ∀ en ∈ a.env, a.env.lookup en.1 = some en.2 := fun en hen => lookup_of_mem hk hen
    simp only [ActionNode.isEqual, EnvMap.sameEntries, beq_self_eq_true, Bool.true_and,
      all_eq_true, beq_iff_eq]
    exact hl
  | _ => simp [ActionNode.isEqual]

/-- Equal nodes are the same, up to the order of the variables and the spelling of the root. -/
lemma eq_of_isEqual {n o : ActionNode} (hk : ((envOf n).map Prod.fst).Nodup) (h : n.isEqual o)
    (hw : n.hashWrites = o.hashWrites)
    (hr : (rootOf n).map (·.components) = (rootOf o).map (·.components) → rootOf n = rootOf o) :
    n = o := by
  have hm := ((hashWrites_eq_iff hk h).mp hw).2
  unfold ActionNode.isEqual at h
  split at h
  next a b =>
    obtain ⟨am, ap, ar, ac⟩ := a
    obtain ⟨bm, bp, br, bt⟩ := b
    simp_all [rootOf]
  next a b =>
    obtain ⟨ap, ar, ac⟩ := a
    obtain ⟨bp, br, bt⟩ := b
    simp_all [rootOf]
  next a b =>
    rw [Bool.and_eq_true, beq_iff_eq] at h
    have henv : a.env = b.env := env_eq_of_sameEntries hk h.2 (.inr hm)
    have hfields := h.1
    obtain ⟨⟩ := a
    obtain ⟨⟩ := b
    simp_all
  next => exact eq_of_beq h

/-- The lookup of the builder is that of the map, where each root is spelled in one way. -/
lemma getIndexFromNode_eq_lookupNode {A H : Type} [DecidableEq H] {finish : List HashWrite → H}
    {builder : ActionGraphBuilder A} {node : ActionNode}
    (hfinish : HashesApart finish builder.graph.nodes node)
    (hkeys : ∀ other ∈ builder.graph.nodes, ((envOf other).map Prod.fst).Nodup)
    (hroots : ∀ other ∈ builder.graph.nodes, (rootOf other).map (·.components) =
      (rootOf node).map (·.components) → rootOf other = rootOf node) :
    builder.getIndexFromNode node = lookupNode finish builder.graph.nodes node := by
  have hsame : ∀ other ∈ builder.graph.nodes, (other == node) =
      (finish other.hashWrites == finish node.hashWrites && other.isEqual node) := by
    intro other ho
    rw [Bool.eq_iff_iff, beq_iff_eq, Bool.and_eq_true, beq_iff_eq]
    constructor
    · rintro rfl
      exact ⟨rfl, isEqual_self (hkeys _ ho)⟩
    · rintro ⟨hh, he⟩
      exact eq_of_isEqual (hkeys other ho) he (hfinish other ho hh) (hroots other ho)
  unfold ActionGraphBuilder.getIndexFromNode lookupNode idxOf?
  generalize builder.graph.nodes = nodes at hsame
  induction nodes with
  | nil => rfl
  | cons first rest ih =>
    obtain ⟨hf, hr⟩ := forall_mem_cons.mp hsame
    rw [findIdx?_cons, findIdx?_cons, hf, ih hr]

def buildNode (env : EnvMap) : ActionNode :=
  .runTask { target := Target.new "app" "build", env := env }

theorem build_found_again : (lookupNode id [buildNode [("A", none), ("B", none)]]
      (buildNode [("A", none), ("B", none)])).isSome = true :=
  (equal_nodes_found_iff id _ _ (fun _ _ h => h) (by decide)).2.mpr
    ⟨_, mem_cons_self, by decide, rfl, rfl⟩

/-- The same variables in another order make for another node. -/
theorem build_inserted_twice :
    (buildNode [("A", none), ("B", none)]).isEqual (buildNode [("B", none), ("A", none)]) = true ∧
      (buildNode [("A", none), ("B", none)]).hashWrites ≠
        (buildNode [("B", none), ("A", none)]).hashWrites ∧
      lookupNode id [buildNode [("A", none), ("B", none)]]
        (buildNode [("B", none), ("A", none)]) = none := by
  decide

end Moon.Proofs
