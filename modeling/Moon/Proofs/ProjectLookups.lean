import Moon.ProjectLookups
import Moon.Proofs.GraphTraits

/-!
# Lookups in graphs that share their caches

A cache holds what some earlier lookup computed, on whatever graph that was.
-/

namespace Moon.Proofs

open Moon.Lib Relation List ProjectGraph

variable {graph : ProjectGraph} {cs : GraphCaches} {id : Id} {s : List String}

lemma internalGet_caches (graph : ProjectGraph) (cs : GraphCaches) (id n : Id) :
    (graph.internalGet cs n).2.fsCache = cs.fsCache ∧
      ∀ p, (graph.internalGet cs n).2.projects.lookup id = some p → cs.projects.lookup id = some p ∨
          (graph.internalGet cs n).1 = .ok (id, p) ∧ id ∈ graph.graph.nodes ∧
            p = graph.expand (graph.projects id) := by
  unfold internalGet
  dsimp only
  split
  · exact ⟨rfl, fun p hp => Or.inl hp⟩
  · split
    · next hn =>
      refine ⟨rfl, fun p hp => ?_⟩
      rw [Map.lookup_insert_eq] at hp
      split_ifs at hp with heq
      · obtain rfl := Option.some.inj hp
        exact Or.inr ⟨by rw [heq], heq ▸ hn, by rw [heq]⟩
      · exact Or.inl hp
    · exact ⟨rfl, fun p hp => Or.inl hp⟩

lemma internalSearch_caches (graph : ProjectGraph) (cs : GraphCaches) (id : Id) (s : List String) :
    (graph.internalSearch cs s).2.projects = cs.projects ∧
      ∀ key, (graph.internalSearch cs s).2.fsCache.lookup key = some id →
        cs.fsCache.lookup key = some id ∨
          key = s ∧ graph.searchFrom s graph.graph.nodes 1000 none = some id := by
  unfold internalSearch
  split
  · exact ⟨rfl, fun key hk => Or.inl hk⟩
  · split
    · next hs =>
      refine ⟨rfl, fun key hk => ?_⟩
      rw [Map.lookup_insert_eq] at hk
      split_ifs at hk with heq
      · exact Or.inr ⟨heq, hs.trans hk⟩
      · exact Or.inl hk
    · exact ⟨rfl, fun key hk => Or.inl hk⟩

lemma run_projects {c : GraphLookup} {p : GraphProject}
    (h : (c.run cs).2.projects.lookup id = some p) :
    cs.projects.lookup id = some p ∨ (c.run cs).1 = .ok (id, p) ∧ id ∈ c.graph.graph.nodes ∧
        p = c.graph.expand (c.graph.projects id) := by
  cases c with
  | get graph n => exact (internalGet_caches _ _ _ _).2 p h
  | getFromPath graph path =>
    have hs := (internalSearch_caches graph cs id (searchKey path)).1
    simp only [GraphLookup.run, getFromPath] at h ⊢
    split at h
    · next heq =>
      rw [heq] at hs
      exact hs ▸ (internalGet_caches _ _ _ _).2 p h
    · next heq =>
      rw [heq] at hs
      exact Or.inl (hs ▸ h)

lemma run_fsCache {c : GraphLookup} (h : (c.run cs).2.fsCache.lookup s = some id) :
    cs.fsCache.lookup s = some id ∨ ∃ p, c = .getFromPath c.graph p ∧ searchKey p = s ∧
        c.graph.searchFrom s c.graph.graph.nodes 1000 none = some id := by
  cases c with
  | get graph n =>
    rw [GraphLookup.run, (internalGet_caches _ _ id _).1] at h
    exact Or.inl h
  | getFromPath graph p =>
    have hs := (internalSearch_caches graph cs id (searchKey p)).2 s
    simp only [GraphLookup.run, getFromPath] at h
    have hf : (graph.internalSearch cs (searchKey p)).2.fsCache.lookup s = some id := by
      split at h
      · next heq =>
        rw [(internalGet_caches _ _ id _).1] at h
        rw [heq]
        exact h
      · next heq =>
        rw [heq]
        exact h
    rcases hs hf with ho | ⟨rfl, hn⟩
    · exact Or.inl ho
    · exact Or.inr ⟨p, rfl, rfl, hn⟩

/-- Lookups of one graph, with what each gave. -/
abbrev LookupLog := List (GraphLookup × LookupResult)

/-- The lookups of a run with their results, and the caches that they leave. -/
inductive Looked : LookupLog → GraphCaches → Prop
  | start : Looked [] {}
  | step {log : LookupLog} {caches : GraphCaches} (h : Looked log caches) (call : GraphLookup) :
      Looked (log ++ [(call, (call.run caches).1)]) (call.run caches).2

variable {log : LookupLog}

lemma Looked.projects (h : Looked log cs) {p : GraphProject} (hp : cs.projects.lookup id = some p) :
    ∃ c, (c, .ok (id, p)) ∈ log ∧ id ∈ c.graph.graph.nodes ∧
      p = c.graph.expand (c.graph.projects id) := by
  induction h with
  | start => cases hp
  | step h c ih =>
    rcases run_projects hp with hol | ⟨hr, hn⟩
    · obtain ⟨other, ho, hrs⟩ := ih hol
      exact ⟨other, mem_append_left _ ho, hrs⟩
    · exact ⟨c, by simp [hr], hn⟩

lemma Looked.fsCache (h : Looked log cs) (hs : cs.fsCache.lookup s = some id) :
    ∃ graph path r, (.getFromPath graph path, r) ∈ log ∧ searchKey path = s ∧
      graph.searchFrom s graph.graph.nodes 1000 none = some id := by
  induction h with
  | start => cases hs
  | step h c ih =>
    rcases run_fsCache hs with ho | ⟨path, hc, hn⟩
    · obtain ⟨graph, path, r, hm, hr⟩ := ih ho
      exact ⟨graph, path, r, mem_append_left _ hm, hr⟩
    · exact ⟨c.graph, path, _, mem_append_right _ (by rw [← hc]; exact mem_cons_self), hn⟩

/-- A project at the root of the workspace has a dot as its source, or nothing. -/
def level (source : List String) : List String := if source = ["."] then [] else source

/-- The project is the deepest one that the path is in. -/
def Longest (graph : ProjectGraph) (path : List String) : LookupResult → Prop
  | .ok (id, _) => id ∈ graph.graph.nodes ∧ level (graph.projects id).source <+: path ∧
      ∀ other ∈ graph.graph.nodes, level (graph.projects other).source <+: path →
        (level (graph.projects other).source).length ≤ (level (graph.projects id).source).length
  | .error _ => ∀ id ∈ graph.graph.nodes, ¬ level (graph.projects id).source <+: path

/-- How much of a path stays behind the source of a project. -/
def away (graph : ProjectGraph) (search : List String) (id : Id) : Nat :=
  search.length - (graph.projects id).source.length

/-- The closest of some projects, in the distance that `internal_search` looks at. -/
def Closest (graph : ProjectGraph) (search : List String) (ids : Set Id) : Option Id → Prop
  | none => ∀ o ∈ ids, (graph.projects o).source <+: search → 1000 ≤ away graph search o
  | some id => id ∈ ids ∧ (graph.projects id).source <+: search ∧
      ∀ o ∈ ids, (graph.projects o).source <+: search → away graph search id ≤ away graph search o

lemma searchFrom_closest (ids : List Id) {se : Set Id} {p : Option Id} (h : Closest graph s se p) :
    Closest graph s ({id | id ∈ ids} ∪ se)
      (graph.searchFrom s ids (p.elim 1000 (away graph s)) p) := by
  induction ids generalizing se p with
  | nil => simpa [searchFrom] using h
  | cons id ids ih =>
    have hs : {o | o ∈ id :: ids} ∪ se = {o | o ∈ ids} ∪ insert id se := by
      ext o
      simp [or_assoc]
    -- the project stays behind what is known, or has no path
    have hk (hfar : (graph.projects id).source <+: s →
        p.elim 1000 (away graph s) ≤ away graph s id) :
        Closest graph s (insert id se) p := by
      cases p <;> simp_all [Closest]
    rw [hs, searchFrom]
    split_ifs with hp hz hl
    · exact ⟨by simp, isPrefixOf_iff_prefix.mp hp, fun o _ _ => by simp [away, hz]⟩
    · have hn : Closest graph s (insert id se) (some id) := by
        refine ⟨by simp, isPrefixOf_iff_prefix.mp hp, ?_⟩
        cases p <;> grind [Closest, away]
      exact ih hn
    · exact ih (hk fun _ => Nat.le_of_not_lt hl)
    · exact ih (hk fun hpr => absurd ( isPrefixOf_iff_prefix.mpr hpr) hp)

section

variable {path source other : List String}

lemma eq_dot_of_prefix (h : source <+: ["."]) : source = [] ∨ source = ["."] := by
  simpa [prefix_cons_iff] using h

lemma level_prefix (h : source <+: searchKey path) : level source <+: path := by
  unfold level
  split_ifs with hs
  · exact nil_prefix
  · unfold searchKey at h
    split_ifs at h with hp
    · rcases eq_dot_of_prefix h with rfl | rfl
      · exact nil_prefix
      · exact absurd rfl hs
    · exact h

/-- Only the dot of a project at the root is no prefix where its directory is. -/
lemma prefix_or_dot (h : level source <+: path) :
    source <+: searchKey path ∨ source = ["."] ∧ path ≠ [] := by
  unfold searchKey
  by_cases hs : source = ["."]
  · by_cases hp : path = []
    · exact .inl (by simp [hs, hp])
    · exact .inr ⟨hs, hp⟩
  · rw [level, if_neg hs] at h
    split_ifs with hp
    · rw [hp] at h
      rw [prefix_nil.mp h]
      exact .inl nil_prefix
    · exact .inl h

lemma level_length_le (h : source <+: searchKey path) (ho : other <+: searchKey path)
    (hle : other.length ≤ source.length) : (level other).length ≤ (level source).length := by
  by_cases hs : source = ["."]
  · -- the other one is the dot as well, or nothing
    have hp : other <+: source := prefix_of_prefix_length_le ho h hle
    rw [hs] at hp
    rcases eq_dot_of_prefix hp with rfl | rfl <;> simp [level]
  · unfold level
    rw [if_neg hs]
    split_ifs
    · exact Nat.zero_le _
    · exact hle

end

/-- The lookup of a project that exists returns it under its id. -/
lemma internalGet_of_mem (cs : GraphCaches) (hid : id ∈ graph.graph.nodes) :
    ∃ p, (graph.internalGet cs id).1 = .ok (id, p) := by
  have hr : graph.resolveId id = id := if_pos hid
  simp only [internalGet, hr]
  split
  · exact ⟨_, rfl⟩
  · rw [if_pos hid]
    exact ⟨_, rfl⟩

/-- A path that was looked up in no focused graph is found, unless nothing but a project at the
root is above it or the path is a thousand components long. -/
theorem path_lookup_longest (full : ProjectGraph) (log : LookupLog) (caches : GraphCaches)
    (hrun : Looked log caches) (path : List String)
    (hfull : ∀ graph other result, (.getFromPath graph other, result) ∈ log →
      searchKey other = searchKey path → graph = full)
    (hroot : ∀ id ∈ full.graph.nodes, (full.projects id).source = ["."] →
      path = [] ∨ ∃ other ∈ full.graph.nodes, (full.projects other).source <+: path)
    (hdepth : path.length < 1000) : Longest full path (full.getFromPath caches path).1 := by
  have hlen : (searchKey path).length < 1000 := by
    unfold searchKey
    split_ifs
    · decide
    · exact hdepth
  -- the search and the lookup of its project
  have hok (id : Id) (caches : GraphCaches)
      (h : Closest full (searchKey path) {id | id ∈ full.graph.nodes} (some id)) :
      Longest full path (full.internalGet caches id).1 := by
    obtain ⟨hi, hpr, ha⟩ := h
    obtain ⟨p, hp⟩ := internalGet_of_mem caches hi
    rw [hp]
    refine ⟨hi, level_prefix hpr, fun other ho hot => ?_⟩
    rcases prefix_or_dot hot with hop | ⟨hd, -⟩
    · apply level_length_le hpr hop
      have haway := ha other ho hop
      have := hop.length_le
      unfold away at haway
      omega
    · simp [level, hd]
  have hn : Closest full (searchKey path) ∅ none := fun _ h => h.elim
  have hcl := searchFrom_closest full.graph.nodes hn
  simp only [Set.union_empty, Option.elim_none] at hcl
  unfold getFromPath internalSearch
  cases hc : caches.fsCache.lookup (searchKey path) with
  | some id =>
    obtain ⟨graph, other, result, hm, hsm, hs⟩ := hrun.fsCache hc
    rw [hfull graph other result hm hsm] at hs
    exact hok id caches (hs ▸ hcl)
  | none =>
    cases hs : full.searchFrom (searchKey path) full.graph.nodes 1000 none with
    | some id => exact hok id _ (hs ▸ hcl)
    | none =>
      rw [hs] at hcl
      have hnone (id : Id) (hi : id ∈ full.graph.nodes) :
          ¬ (full.projects id).source <+: searchKey path := by
        intro hpr
        have := hcl id hi hpr
        unfold away at this
        omega
      intro id hi hpr
      rcases prefix_or_dot hpr with hp | ⟨hd, hp⟩
      · exact hnone id hi hp
      · obtain ⟨other, ho, hop⟩ := (hroot id hi hd).resolve_left hp
        rw [searchKey, if_neg hp] at hnone
        exact hnone other ho hop

/-- A project at the root has a dot as its source, which is no prefix of a path. -/
theorem root_project_not_found :
    (getFromPath ⟨⟨["root"], [], by simp⟩, fun _ => ⟨["."], []⟩, fun _ => none⟩ {}
      ["docs"]).1 = .error (.missingFromPath ["docs"]) := by
  decide

/-- A project at the root, one below it, and one below that. -/
def nestedGraph : ProjectGraph where
  graph := ⟨["repo", "app", "ui"], [("app", "ui", .production)], by simp⟩
  projects id :=
    { source := if id = "repo" then ["."] else if id = "app" then ["app"] else ["app", "ui"] }

/-- Another path was looked up in a focused graph, and this one in the full graph. -/
theorem nested_project_found : ∃ log caches, Looked log caches ∧
    log.map Prod.fst =
      [.getFromPath (nestedGraph.focused "app" false) ["app", "lib"],
        .getFromPath nestedGraph ["app", "ui", "src"],
        .get (nestedGraph.focused "app" false) "ui"] ∧
    Longest nestedGraph ["app", "ui", "src"]
      (nestedGraph.getFromPath caches ["app", "ui", "src"]).1 ∧
    ∃ p, (nestedGraph.getFromPath caches ["app", "ui", "src"]).1 = .ok ("ui", p) := by
  have hl := ((Looked.start.step
    (.getFromPath (nestedGraph.focused "app" false) ["app", "lib"])).step
      (.getFromPath nestedGraph ["app", "ui", "src"])).step
        (.get (nestedGraph.focused "app" false) "ui")
  have h := path_lookup_longest nestedGraph _ _ hl ["app", "ui", "src"]
    (by simp only [searchKey]; grind)
    (fun id _ _ => .inr ⟨"app", by simp [nestedGraph], by simp [nestedGraph]⟩) (by decide)
  refine ⟨_, _, hl, rfl, h, ?_⟩
  -- no other project has a source of two components
  generalize (nestedGraph.getFromPath _ ["app", "ui", "src"]).1 = result at h
  have hui : "ui" ∈ nestedGraph.graph.nodes ∧
      level (nestedGraph.projects "ui").source <+: ["app", "ui", "src"] := by decide
  cases result with
  | error error => exact absurd hui.2 (h "ui" hui.1)
  | ok found =>
    obtain ⟨id, p⟩ := found
    have hlen := h.2.2 "ui" hui.1 hui.2
    have hid : id = "repo" ∨ id = "app" ∨ id = "ui" := by simpa [nestedGraph] using h.1
    obtain rfl | rfl | rfl := hid
    · exact absurd hlen (by decide)
    · exact absurd hlen (by decide)
    · exact ⟨p, rfl⟩

/-- Edges between the same two projects are one edge. -/
def SimpleEdges (edges : List (Id × Id × DependencyScope)) : Prop :=
  ∀ e ∈ edges, ∀ e' ∈ edges, (e.1, e.2.1) = (e'.1, e'.2.1) → e = e'

lemma mem_foldl_updateEdge {es kept : List (Id × Id × DependencyScope)}
    {e : Id × Id × DependencyScope} (h : SimpleEdges (kept ++ es)) :
    e ∈ es.foldl updateEdge kept ↔ e ∈ kept ++ es := by
  induction es generalizing kept with
  | nil => simp
  | cons edge es ih =>
    have hmem (x) : x ∈ updateEdge kept edge ↔ x ∈ kept ++ [edge] := by
      unfold updateEdge
      split_ifs with ha
      · -- an edge that is there is this one, so that nothing is replaced
        have hsame (o) (ho : o ∈ kept) (heq : (o.1, o.2.1) = (edge.1, edge.2.1)) : o = edge :=
          h o (mem_append_left _ ho) edge (by simp) heq
        have hid : kept.map (fun o => if (o.1, o.2.1) = (edge.1, edge.2.1) then edge else o) =
            kept := by
          rw [map_congr_left (g := id)]
          · exact map_id _
          · intro o ho
            split_ifs with heq
            · exact (hsame o ho heq).symm
            · rfl
        rw [hid]
        obtain ⟨o, ho, heq⟩ := any_eq_true.mp ha
        have hin : edge ∈ kept := hsame o ho (of_decide_eq_true heq) ▸ ho
        simp only [mem_append, mem_singleton]
        exact ⟨.inl, fun hx => hx.elim (fun hx => hx) fun hx => hx ▸ hin⟩
      · rfl
    have hs (x) : x ∈ updateEdge kept edge ++ es ↔ x ∈ kept ++ edge :: es := by
      simp [hmem, or_assoc]
    rw [foldl_cons, ih fun o ho o' ho' => h o ((hs o).mp ho) o' ((hs o').mp ho'), hs]

lemma mem_toFocusedNodes {f : ProjectGraph} {fs : Id} {ws : Bool} (h : fs ∈ f.graph.nodes) :
    id ∈ f.toFocusedNodes fs ws ↔ id = fs ∨ TransGen (Joined f.graph.edges .outgoing) fs id ∨
        ws ∧ TransGen (Joined f.graph.edges .incoming) fs id := by
  have hn {d : Direction} (hp : TransGen (Joined f.graph.edges d) fs id) : id ∈ f.graph.nodes := by
    obtain ⟨_, -, hj⟩ := TransGen.tail'_iff.mp hp
    exact (KeyGraph.mem_nodes_of_joined hj).2
  simp only [toFocusedNodes, mem_filter, traverseDeep_exact.2, decide_eq_true_eq,
    and_iff_right_iff_imp]
  rintro (rfl | hp | ⟨-, hp⟩)
  exacts [h, hn hp, hn hp]

/-- A graph answers as if it were alone where no other one returned the project before. -/
lemma Looked.internalGet_eq (h : Looked log cs) {n : Id}
    (ho : ∀ c p, (c, .ok (graph.resolveId n, p)) ∈ log → c.graph = graph) :
    (graph.internalGet cs n).1 = (graph.internalGet {} n).1 := by
  simp only [internalGet, Finmap.lookup_empty]
  cases hc : cs.projects.lookup (graph.resolveId n) with
  | none => split_ifs <;> rfl
  | some p =>
    obtain ⟨c, hm, hn, hp⟩ := h.projects hc
    rw [ho c p hm] at hn hp
    simp only [hp, if_pos hn]

lemma internalGet_isOk (graph : ProjectGraph) (n : Id) :
    (graph.internalGet {} n).1.isOk ↔ graph.resolveId n ∈ graph.graph.nodes := by
  simp only [internalGet, Finmap.lookup_empty]
  split_ifs with h <;> simpa [Except.isOk, Except.toBool] using h

/-- The result of a lookup has the id that the name stands for. -/
lemma internalGet_id {n : Id} {p : GraphProject} (h : (graph.internalGet cs n).1 = .ok (id, p)) :
    id = graph.resolveId n := by
  simp only [internalGet] at h
  split at h
  · exact (Prod.mk.inj (Except.ok.inj h)).1.symm
  · split_ifs at h
    · exact (Prod.mk.inj (Except.ok.inj h)).1.symm

/-- `docs` uses `lib` through two edges, outside of what is focused. -/
def libGraph : ProjectGraph where
  graph := ⟨["cli", "app", "lib", "docs"], [("cli", "app", .build), ("app", "lib", .production),
    ("docs", "lib", .production), ("docs", "lib", .development)], by simp⟩
  projects id := { source := [id] }
  aliases name := if name = "@lib" then some "lib" else none

lemma libGraph_focused : libGraph.toFocusedNodes "app" true = ["cli", "app", "lib"] := by
  simp [libGraph, toFocusedNodes, traverseDeep, traverse, depNodes, neighborsDirected, addKeys]

end Moon.Proofs
