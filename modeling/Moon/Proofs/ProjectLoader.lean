import Moon.Proofs.GraphLoader

/-! # Loading projects -/

namespace Moon.Proofs

open Moon.Lib Relation List ProjectConfigs

/-- The same projects, listed and declared in another order. -/
structure ReorderedProjects (configs configs' : ProjectConfigs) : Prop where
  ids : configs'.ids.Perm configs.ids
  aliases : configs'.aliases = configs.aliases
  dependencies : ∀ id, (configs'.dependencies id).Perm (configs.dependencies id)

section

variable (configs : ProjectConfigs)

def projectEdge (id : Id) (dep : ProjectDependencyConfig) :
    ProjectEdge :=
  ⟨id, configs.resolveId dep.id, dep.scope⟩

/-- An edge that the configs declare. -/
def DeclaredProjectEdge (edge : ProjectEdge) : Prop :=
  edge.source ∈ configs.ids ∧ ∃ dep ∈ configs.dependencies edge.source,
    dep.scope ≠ .root ∧ edge = projectEdge configs edge.source dep

/-- A dependency of the production or of the development partition. -/
def PartitionRequires (production : Bool) (id other : Id) : Prop :=
  ∃ edge, DeclaredProjectEdge configs edge ∧ edge.scope.isProductionGroup = production ∧
    edge.source = id ∧ edge.target = other

def ProjectRequires (id other : Id) : Prop :=
  id ∈ configs.ids ∧ ∃ dep ∈ configs.dependencies id, configs.resolveId dep.id = other

/-- A dependency that leads back to its project is named by id. -/
def NamesBackById : Prop :=
  ∀ id ∈ configs.ids, ∀ dep ∈ configs.dependencies id, dep.scope ≠ .root →
    ReflTransGen (ProjectRequires configs) (configs.resolveId dep.id) id →
    configs.resolveId dep.id = dep.id

end

section

variable {cs : ProjectConfigs}

variable (cs) in
def LinksDeclared (links : ProjectLinks) : Prop :=
  (∀ edge ∈ links.edges, DeclaredProjectEdge cs edge) ∧
    ∀ edge ∈ links.deferred, DeclaredProjectEdge cs edge

variable (cs) in
def DependencyLinked (links : ProjectLinks) (id : Id) (dep : ProjectDependencyConfig) : Prop :=
  NamesBackById cs → dep.scope = .root ∨ projectEdge cs id dep ∈ links.edges ∨
    projectEdge cs id dep ∈ links.deferred

lemma wouldCycleInScope_eq_false (hacyclic : ∀ p, Acyclic (PartitionRequires cs p))
    {es : List ProjectEdge} (hes : ∀ e ∈ es, DeclaredProjectEdge cs e) {e : ProjectEdge}
    (hed : DeclaredProjectEdge cs e) :
    wouldCycleInScope es e.source e.target e.scope = false := by
  unfold wouldCycleInScope
  rw [← Bool.not_eq_true, reaches_iff]
  intro hpt
  have hmn : ∀ a b, EdgeRel ((es.filter (fun o =>
      o.scope.isProductionGroup == e.scope.isProductionGroup)).map
        (fun o => (o.source, o.target))) a b →
      PartitionRequires cs e.scope.isProductionGroup a b := by
    intro a b ha
    obtain ⟨o, ho, heq⟩ := mem_map.mp ha
    obtain ⟨hm, hp⟩ := mem_filter.mp ho
    cases heq
    exact ⟨o, hes o hm, by simpa using hp, rfl, rfl⟩
  have hs : PartitionRequires cs e.scope.isProductionGroup e.source e.target :=
    ⟨e, hed, rfl, rfl, rfl⟩
  exact hacyclic _ e.source (TransGen.head' hs (ReflTransGen.mono hmn _ _ hpt))

lemma resolveId_of_mem {id : Id} (h : id ∈ cs.ids) : cs.resolveId id = id := if_pos h

section

variable (hacyclic : ∀ p, Acyclic (PartitionRequires cs p))
include hacyclic

lemma linkSpec_projects
    (hk : ∀ id ∈ cs.ids, ∀ dep ∈ cs.dependencies id, cs.resolveId dep.id ∈ cs.ids) :
    LinkSpec cs.spec (LinksDeclared cs) (DependencyLinked cs) where
  configured id hid dep hd := by
    have hm := hk id (of_decide_eq_true hid) dep hd
    exact decide_eq_true hm
  named dep c hc h := by
    have hm : dep.id ∈ c := of_decide_eq_true h
    have hid : dep.id ∈ cs.ids := of_decide_eq_true (hc dep.id hm)
    change cs.resolveId dep.id ∈ c
    rwa [resolveId_of_mem hid]
  back id hid dep hd nodes links _ hnd hi := by
    have hid : id ∈ cs.ids := of_decide_eq_true hid
    simp only [spec]
    split
    next hdf =>
      have hed : DeclaredProjectEdge cs (projectEdge cs id dep) := ⟨hid, dep, hd, hdf.1, rfl⟩
      refine ⟨⟨hi.1, forall_mem_append.mpr ⟨hi.2, forall_mem_singleton.mpr hed⟩⟩,
        fun _ => .inr (.inr (mem_append_right _ mem_cons_self)), ?_⟩
      intro o dep' hl hn
      exact (hl hn).imp_right (Or.imp_right (fun h => mem_append_left _ h))
    next hkp =>
      have hr : dep.scope = .root := by
        by_contra hne
        exact hkp ⟨hne, hnd⟩
      exact ⟨hi, fun _ => .inl hr, fun _ _ h => h⟩
  link id hid dep hd links hi := by
    have hid : id ∈ cs.ids := of_decide_eq_true hid
    by_cases hr : dep.scope = .root
    · refine ⟨links, ?_, hi, fun _ => .inl hr, fun _ _ h => h⟩
      simp [spec, hr]
    · have hed : DeclaredProjectEdge cs (projectEdge cs id dep) :=
        ⟨hid, dep, hd, hr, rfl⟩
      have hno : wouldCycleInScope links.edges id (cs.resolveId dep.id) dep.scope = false :=
        wouldCycleInScope_eq_false hacyclic hi.1 hed
      refine ⟨{ links with edges := links.edges ++ [projectEdge cs id dep] }, ?_,
        ⟨forall_mem_append.mpr ⟨hi.1, forall_mem_singleton.mpr hed⟩, hi.2⟩,
        fun _ => .inr (.inl (mem_append_right _ mem_cons_self)), ?_⟩
      · simp [spec, hr, hno, projectEdge]
      · intro o dep' hl hn
        exact (hl hn).imp_right (Or.imp_left (fun h => mem_append_left _ h))
  unnamed id hid dep hd hp := by
    by_cases hr : dep.scope = .root
    · exact .inr (fun links _ => .inl hr)
    by_cases hn : NamesBackById cs
    · have hb : ReflTransGen (ProjectRequires cs) (cs.resolveId dep.id) id :=
        ReflTransGen.mono (fun _ _ h => by simpa [Loads, ProjectRequires, spec] using h)
          _ _ hp
      have hnm := hn id (of_decide_eq_true hid) dep hd hr hb
      refine .inl (fun c hm => decide_eq_true ?_)
      rwa [← hnm]
    · exact .inr (fun links h => absurd h hn)

lemma connectDeferred_eq {links : ProjectLinks}
    (hl : LinksDeclared cs links) : connectDeferredProjectEdges links =
      { edges := links.edges ++ links.deferred, deferred := [] } := by
  have hf : ∀ d es : List ProjectEdge,
      (∀ e ∈ es, DeclaredProjectEdge cs e) →
      (∀ e ∈ d, DeclaredProjectEdge cs e) →
      d.foldl (fun es e =>
        if wouldCycleInScope es e.source e.target e.scope then es
        else es ++ [e]) es = es ++ d := by
    intro d
    induction d with
    | nil => intro es _ _; simp
    | cons e d ih =>
      intro es hes hd
      obtain ⟨hed, hr⟩ := forall_mem_cons.mp hd
      rw [foldl_cons, wouldCycleInScope_eq_false hacyclic hes hed, if_neg Bool.false_ne_true,
        ih _ (forall_mem_append.mpr ⟨hes, forall_mem_singleton.mpr hed⟩) hr,
        append_assoc, singleton_append]
  unfold connectDeferredProjectEdges
  rw [hf links.deferred links.edges hl.1 hl.2]

lemma loadProject_spec (hk : ∀ id ∈ cs.ids, ∀ dep ∈ cs.dependencies id,
      cs.resolveId dep.id ∈ cs.ids) {l : Loading Id ProjectLinks}
    (hr : RestOk cs.spec (LinksDeclared cs) (DependencyLinked cs) l) {id : Id} (hi : id ∈ cs.ids) :
    ∃ after, cs.loadProject l id = .ok after ∧
      RestOk cs.spec (LinksDeclared cs) (DependencyLinked cs) after ∧
      after.links.deferred = [] ∧ l.nodes ⊆ after.nodes ∧ id ∈ after.nodes := by
  obtain ⟨after, haf, ha, hs, hnd⟩ := hr.load
    (loadNode_spec (linkSpec_projects hacyclic hk) (fun id h => of_decide_eq_true h) _)
    (decide_eq_true hi)
  have hc := connectDeferred_eq hacyclic ha.inv
  refine ⟨{ after with links := connectDeferredProjectEdges after.links }, ?_, ?_,
    by rw [hc], hs, hnd⟩
  · unfold loadProject
    rw [resolveId_of_mem hi, haf]
    rfl
  · rw [hc]
    refine ⟨ha.setLinks ?_ ?_, ha.all⟩
    · exact ⟨forall_mem_append.mpr ha.inv, by simp⟩
    · intro o dep hl hn
      exact (hl hn).imp_right (fun h => .inl (mem_append.mpr h))

end

variable (cs) in
lemma loadProjects_exact (hacyclic : ∀ p, Acyclic (PartitionRequires cs p))
    (hk : ∀ id ∈ cs.ids, ∀ dep ∈ cs.dependencies id, cs.resolveId dep.id ∈ cs.ids) :
    ∃ l, cs.loadProjects = .ok l ∧
      (∀ id, id ∈ l.nodes ↔ id ∈ cs.ids) ∧ (∀ id ∈ l.nodes, id ∈ l.loaded) ∧
      (∀ e ∈ l.links.edges, DeclaredProjectEdge cs e) ∧
      (NamesBackById cs → ∀ e, DeclaredProjectEdge cs e → e ∈ l.links.edges) := by
  have hst : RestOk cs.spec (LinksDeclared cs) (DependencyLinked cs)
      { links := {} } :=
    { inv := ⟨by simp, by simp⟩
      known := by simp
      loaded := by simp
      settled := by simp
      cycle := by simp
      all := by simp }
  obtain ⟨l, hl, hr, -, hal⟩ := hst.foldlM cs.loadProject (fun l hl id (hi : id ∈ cs.ids) => by
      obtain ⟨after, ha, haf, -, hnd⟩ := loadProject_spec hacyclic hk hl hi
      exact ⟨after, ha, haf, hnd⟩)
  -- each call ends with nothing deferred
  have hn : l.links.deferred = [] := by
    refine foldlM_invariant (P := fun l : Loading Id ProjectLinks =>
      l.links.deferred = []) ?_ rfl hl
    intro before id after _ ha
    obtain ⟨loaded, -, hre⟩ := bind_eq_ok ha
    cases hre
    rfl
  refine ⟨l, hl, fun id => ⟨fun h => of_decide_eq_true (hr.known id h), hal id⟩,
    hr.all, hr.inv.1, ?_⟩
  rintro hnm e ⟨hs, dep, hdp, hsc, hed⟩
  have hld := hr.all _ (hal _ hs)
  obtain hrt | hlk | hd := hr.settled e.source hld dep hdp hnm
  · exact absurd hrt hsc
  · exact hed ▸ hlk
  · rw [hn] at hd
    exact absurd hd not_mem_nil

end

/-- If each partition is acyclic, then in every order of the projects and of their dependencies all
projects are loaded, and the edges of the graph are the dependencies, as long as those that lead
back are named by id. -/
theorem acyclic_partitions_load_exactly (configs : ProjectConfigs)
    (hacyclic : ∀ production, Acyclic (PartitionRequires configs production))
    (hknown : ∀ id ∈ configs.ids, ∀ dep ∈ configs.dependencies id,
      configs.resolveId dep.id ∈ configs.ids)
    (configs' : ProjectConfigs) (hreordered : ReorderedProjects configs configs') :
    ∃ loading, configs'.loadProjects = .ok loading ∧
      (∀ edge ∈ loading.links.edges, DeclaredProjectEdge configs edge) ∧
      (NamesBackById configs →
        ∀ edge, edge ∈ loading.links.edges ↔ DeclaredProjectEdge configs edge) := by
  have hi : ∀ id, id ∈ configs'.ids ↔ id ∈ configs.ids := fun id => hreordered.ids.mem_iff
  have hdp : ∀ id dep, dep ∈ configs'.dependencies id ↔ dep ∈ configs.dependencies id :=
    fun id dep => (hreordered.dependencies id).mem_iff
  have hr : configs'.resolveId = configs.resolveId := by
    funext n
    simp only [resolveId, hi, hreordered.aliases]
  have hd : DeclaredProjectEdge configs' = DeclaredProjectEdge configs := by
    funext edge
    simp only [DeclaredProjectEdge, projectEdge, hi, hdp, hr]
  have hp : PartitionRequires configs' = PartitionRequires configs := by
    funext production id o
    simp only [PartitionRequires, hd]
  have hrq : ProjectRequires configs' = ProjectRequires configs := by
    funext id o
    simp only [ProjectRequires, hi, hdp, hr]
  have hn : NamesBackById configs' ↔ NamesBackById configs := by
    simp only [NamesBackById, hi, hdp, hr, hrq]
  obtain ⟨loading, hl, -, -, hs, hc⟩ := loadProjects_exact configs'
    (hp ▸ hacyclic) (by simpa only [hi, hdp, hr] using hknown)
  rw [hd] at hs hc
  refine ⟨loading, hl, hs, fun hb edge => ⟨hs edge, ?_⟩⟩
  exact hc (hn.mpr hb) edge

def uiConfigs (name : String) : ProjectConfigs :=
  { ids := ["app", "ui"]
    aliases := fun name => if name = "@moon/app" then some "app" else none
    dependencies := fun id =>
      if id = "app" then [{ id := "ui" }]
      else if id = "ui" then [{ id := name, scope := .development }]
      else [] }

lemma acyclic_uiConfigs {n : String} (hn : n ∈ ["app", "@moon/app"])
    (p : Bool) : Acyclic (PartitionRequires (uiConfigs n) p) := by
  have hr : ∀ n ∈ ["app", "@moon/app"], ∀ id ∈ (uiConfigs n).ids,
      ∀ dep ∈ (uiConfigs n).dependencies id, dep.scope.isProductionGroup = p →
        (if decide ((uiConfigs n).resolveId dep.id = "app") = p then 1 else 0) <
          if decide (id = "app") = p then 1 else 0 := by
    cases p <;> decide
  apply acyclic_of_rank (fun id => if decide (id = "app") = p then 1 else 0)
  rintro id o ⟨e, ⟨hi, dep, hd, -, hed⟩, hp, rfl, rfl⟩
  rw [hed] at hp ⊢
  exact hr n hn e.source hi dep hd hp

theorem ui_loads_in_reverse :
    ∃ loading, ({ uiConfigs "app" with ids := ["ui", "app"] } : ProjectConfigs).loadProjects =
        .ok loading ∧
      ∀ e, e ∈ loading.links.edges ↔ DeclaredProjectEdge (uiConfigs "app") e := by
  have hb : NamesBackById (uiConfigs "app") := by
    have hn : ∀ id ∈ (uiConfigs "app").ids, ∀ dep ∈ (uiConfigs "app").dependencies id,
        (uiConfigs "app").resolveId dep.id = dep.id := by
      decide
    exact fun id hi dep hd _ _ => hn id hi dep hd
  obtain ⟨loading, hl, -, hex⟩ := acyclic_partitions_load_exactly (uiConfigs "app")
    (acyclic_uiConfigs (by decide)) (by decide) { uiConfigs "app" with ids := ["ui", "app"] }
    ⟨List.Perm.swap _ _ _, rfl, fun _ => List.Perm.refl _⟩
  exact ⟨loading, hl, hex hb⟩

def iconsConfigs (appDeps : List ProjectDependencyConfig) : ProjectConfigs :=
  { ids := ["app", "ui", "icons"]
    dependencies := fun id =>
      if id = "app" then appDeps
      else if id = "ui" then [{ id := "app" }]
      else [] }

/-- Whether a cycle is an error depends on which dependency comes first. In acyclic partitions,
a dependency that leads back under an alias has no edge. -/
theorem icons_order_decides :
    (∃ loading, (iconsConfigs [{ id := "ui" }, { id := "icons" }]).loadProjects = .ok loading) ∧
    (iconsConfigs [{ id := "icons" }, { id := "ui" }]).loadProjects =
      .error (.wouldCycle "app" "ui") ∧
    (∀ p, Acyclic (PartitionRequires (uiConfigs "@moon/app") p)) ∧
    DeclaredProjectEdge (uiConfigs "@moon/app") ⟨"ui", "app", .development⟩ ∧
    ∃ loading, (uiConfigs "@moon/app").loadProjects = .ok loading ∧
      ⟨"ui", "app", .development⟩ ∉ loading.links.edges := by
  refine ⟨⟨_, rfl⟩, rfl, acyclic_uiConfigs (by decide), ?_, ⟨_, rfl, by decide⟩⟩
  exact ⟨by decide, ⟨"@moon/app", .development, .explicit, none⟩, by decide⟩

end Moon.Proofs
