import Moon.GraphTraits

/-!
# Walks find what can be reached

The deep walk collects the neighbors of the nodes it visits, so its start is among the results
on a cycle only, where the walk of a partition never lists its start.
-/

namespace Moon.Proofs

open Relation List

variable {K S : Type} [DecidableEq K] {g : KeyGraph K S} {d : Direction} {a : K}

section

variable {q v deps : List K}

lemma mem_addKeys (k : List K) {dep : K} : dep ∈ addKeys deps k ↔ dep ∈ deps ∨ dep ∈ k := by
  induction k generalizing deps with
  | nil => simp [addKeys]
  | cons key k ih =>
    rw [addKeys, foldl_cons, ← addKeys, ih]
    split <;> grind

lemma nodup_addKeys (k : List K) (h : deps.Nodup) : (addKeys deps k).Nodup := by
  induction k generalizing deps with
  | nil => exact h
  | cons key k ih =>
    rw [addKeys, foldl_cons, ← addKeys]
    apply ih
    split <;> grind

lemma mem_depNodes {key dep : K} : dep ∈ depNodes g d key ↔ Joined g.edges d key dep := by
  simp only [depNodes, mem_filter, mem_neighborsDirected, decide_eq_true_eq, and_iff_right_iff_imp]
  exact fun h => (KeyGraph.mem_nodes_of_joined h).2

/-- What holds whenever the deep walk takes a node. -/
structure Traversing (graph : KeyGraph K S) (direction : Direction) (start : K)
    (queue visited deps : List K) : Prop where
  reached : ∀ key, key ∈ queue ∨ key ∈ visited →
    ReflTransGen (Joined graph.edges direction) start key
  mem_deps : ∀ dep, dep ∈ deps ↔ ∃ key ∈ visited, Joined graph.edges direction key dep
  found : ∀ dep ∈ deps, dep ∈ queue ∨ dep ∈ visited
  start_mem : start ∈ queue ∨ start ∈ visited
  nodup : deps.Nodup

lemma Traversing.visit {key : K} (h : Traversing g d a (key :: q) v deps) :
    Traversing g d a ((depNodes g d key).reverse ++ q)
      (key :: v) (addKeys deps (neighborsDirected g.edges key d)) where
  reached other ho := by
    simp only [mem_append, mem_reverse, mem_depNodes, mem_cons] at ho
    have hk := h.reached key (by simp)
    rcases ho with (hd | hq) | (rfl | hv)
    · exact hk.tail hd
    · exact h.reached other (by simp [hq])
    · exact hk
    · exact h.reached other (Or.inr hv)
  mem_deps dep := by
    simp [mem_addKeys, h.mem_deps, or_comm]
  found dep hd := by
    rw [mem_addKeys, mem_neighborsDirected] at hd
    rw [mem_append, mem_reverse, mem_depNodes, mem_cons]
    have := h.found dep
    grind
  start_mem := by
    have := h.start_mem
    grind
  nodup := nodup_addKeys _ h.nodup

omit [DecidableEq K] in
lemma Traversing.exact (h : Traversing g d a [] v deps) (dep : K) :
    dep ∈ deps ↔ TransGen (Joined g.edges d) a dep := by
  have hv (key : K) : key ∈ v ↔ ReflTransGen (Joined g.edges d) a key := by
    refine ⟨fun hk => h.reached key (Or.inr hk), fun hp => ?_⟩
    induction hp with
    | refl => exact h.start_mem.resolve_left not_mem_nil
    | tail _ hj ih =>
      exact (h.found _ ((h.mem_deps _).mpr ⟨_, ih, hj⟩)).resolve_left not_mem_nil
  simp only [h.mem_deps, hv, TransGen.tail'_iff]

lemma Traversing.traverse (h : Traversing g d a q v deps) :
    (traverse g d q v deps).Nodup ∧ ∀ dep, dep ∈ traverse g d q v deps ↔
        TransGen (Joined g.edges d) a dep := by
  fun_induction Moon.traverse with
  | case1 v deps => exact ⟨h.nodup, h.exact⟩
  | case2 v deps key q hsn ih =>
    -- the node stays known, among the visited ones
    refine ih ⟨?_, h.mem_deps, ?_, ?_, h.nodup⟩
    · exact fun o ho => h.reached o (ho.imp_left (mem_cons_of_mem key))
    · have := h.found
      grind
    · have := h.start_mem
      grind
  | case3 v deps key q hnew ih => exact ih h.visit

lemma traverseDeep_exact : (traverseDeep g d a).Nodup ∧ ∀ dep, dep ∈ traverseDeep g d a ↔
      TransGen (Joined g.edges d) a dep := by
  refine Traversing.traverse ⟨?_, ?_, ?_, ?_, ?_⟩
  all_goals simp [ReflTransGen.refl]

end

section

variable {es : List (K × K × S)} {walk : Walk K}

/-- What holds whenever the walk of a partition takes a node. -/
structure Walking (edges : List (K × K × S)) (direction : Direction) (start : K)
    (walk : Walk K) : Prop where
  mem_visited : ∀ key, key ∈ walk.visited ↔ key = start ∨ key ∈ walk.results
  fresh : (start :: walk.results).Nodup
  reached : ∀ key ∈ walk.visited, ReflTransGen (Joined edges direction) start key
  queued : walk.queue ⊆ walk.visited
  closed : ∀ key ∈ walk.visited, key ∈ walk.queue ∨
    ∀ next, Joined edges direction key next → next ∈ walk.visited

lemma Walking.step {key : K} {q v rs : List K} (h : Walking es d a ⟨key :: q, v, rs⟩) :
    Walking es d a ((neighborsDirected es key d).foldl Walk.meet ⟨q, v, rs⟩) := by
  obtain ⟨new, hdup, hm, heq⟩ := foldl_meet (neighborsDirected es key d) ⟨q, v, rs⟩
  simp only [mem_neighborsDirected] at hm
  obtain ⟨hv, hf, hr, hq, hc⟩ := h
  simp only [cons_subset] at hv hf hr hq hc
  rw [heq]
  constructor
  · grind
  · grind
  · intro o ho
    rw [mem_append, mem_reverse, hm] at ho
    exact ho.elim (fun hn => (hr key hq.1).tail hn.1) (hr o)
  · grind
  · intro o ho
    by_cases hkey : o = key
    · exact Or.inr (by grind)
    · grind

lemma Walking.walkFrom (h : Walking es d a walk) :
    (walkFrom es d walk).Nodup ∧ ∀ key, key ∈ walkFrom es d walk ↔
        key ≠ a ∧ TransGen (Joined es d) a key := by
  fun_induction Moon.walkFrom with
  | case1 v rs =>
    obtain ⟨hv, hf, hr, -, hc⟩ := h
    obtain ⟨hs, hd⟩ := nodup_cons.mp hf
    have ha (key : K) (hp : ReflTransGen (Joined es d) a key) : key ∈ v := by
      induction hp with
      | refl => exact (hv a).mpr (Or.inl rfl)
      | tail _ hj ih => exact (hc _ ih).resolve_left not_mem_nil _ hj
    refine ⟨hd, fun key => ⟨fun hk => ?_, fun ⟨hn, hp⟩ => ?_⟩⟩
    · have hn : key ≠ a := fun h => hs (h ▸ hk)
      have hp := hr key ((hv key).mpr (Or.inr hk))
      exact ⟨hn, (reflTransGen_iff_eq_or_transGen.mp hp).resolve_left hn⟩
    · exact ((hv key).mp (ha key hp.to_reflTransGen)).resolve_left hn
  | case2 key q v rs ih => exact ih h.step

end

end Moon.Proofs
