import Moon.Proofs.ProjectBuilder

/-! # Explicit and implicit dependencies -/

namespace Moon.Proofs

open Moon.Lib List

def lastNamed (deps : List ProjectDependencyConfig) (name : Id) : Option ProjectDependencyConfig :=
  deps.reverse.find? (fun dep => dep.id == name)

/-- Every explicit dependency is there as it is configured, and nothing else stands for the same
project. -/
structure KeepsExplicit (resolve : Id → Id) (explicit deps : List ProjectDependencyConfig) :
    Prop where
  kept : ∀ dep, lastNamed explicit dep.id = some dep → dep ∈ deps
  alone : ∀ dep ∈ explicit, ∀ other ∈ deps, resolve other.id = resolve dep.id → other ∈ explicit

section

variable {d : List ProjectDependencyConfig} {dep : ProjectDependencyConfig} {name : Id}

lemma id_of_lastNamed (h : lastNamed d name = some dep) : dep.id = name := by
  have hi := find?_some h
  exact eq_of_beq hi

lemma mem_of_lastNamed (h : lastNamed d name = some dep) : dep ∈ d :=
  mem_reverse.mp (mem_of_find?_eq_some h)

lemma exists_lastNamed (h : dep ∈ d) : ∃ l, lastNamed d dep.id = some l := by
  have hs : (d.reverse.find? (fun o => o.id == dep.id)).isSome :=
    find?_isSome.mpr ⟨dep, mem_reverse.mpr h, beq_self_eq_true _⟩
  exact Option.isSome_iff_exists.mp hs

lemma lastNamed_append (d d' : List ProjectDependencyConfig) (name : Id) :
    lastNamed (d ++ d') name = (lastNamed d' name).or (lastNamed d name) := by
  unfold lastNamed
  rw [reverse_append, find?_append]

lemma mem_buildDependencies {P C : Type} {context : WorkspaceContext P C} :
    dep ∈ buildDependencies context d ↔ lastNamed d dep.id = some dep := by
  unfold buildDependencies
  rw [(context.hashOrder_perm _).mem_iff, mem_foldl_insertDependency]
  rfl

end

section

variable {r : Option Id} {id : Id} {k : Id → Bool}

variable (r id k) in
def addImplicit (deps : List ProjectDependencyConfig) (taskDep : TaskDependencyConfig) :
    List ProjectDependencyConfig :=
  deps ++ (createProjectDepFromTaskDep taskDep id r (fun depProjectId =>
    deps.any (fun dep => dep.id == depProjectId) || k depProjectId)).toList

lemma mem_ids_addImplicit (d : List ProjectDependencyConfig) (t : TaskDependencyConfig)
    (name : Id) :
    name ∈ (addImplicit r id k d t).map (·.id) ↔ name ∈ d.map (·.id) ∨
        t.target.getProjectId = some name ∧ name ≠ id ∧ k name = false := by
  have ha : ∀ o, d.any (fun dep => dep.id == o) ↔
      o ∈ d.map (·.id) := by
    intro o
    simp only [any_eq_true, beq_iff_eq, mem_map]
  unfold addImplicit createProjectDepFromTaskDep
  rw [map_append, mem_append]
  cases hpr : t.target.getProjectId with
  | none => simp
  | some o =>
    by_cases hnm : o = name
    · subst hnm
      simp only [Bool.or_eq_true, ha, beq_iff_eq]
      split
      next hs =>
        have hr : o ≠ id → k o = false → o ∈ d.map (·.id) := by
          intro hi hk
          rw [hk] at hs
          rcases hs with rfl | hm | hf
          · exact absurd rfl hi
          · exact hm
          · cases hf
        simp only [Option.toList_none, map_nil, not_mem_nil, or_false, true_and]
        exact ⟨.inl, fun h => h.elim (fun hm => hm) (fun hn => hr hn.1 hn.2)⟩
      next hc =>
        have hi : o ≠ id := fun h => hc (.inl h.symm)
        have hk : k o = false := Bool.eq_false_iff.mpr (fun h => hc (.inr (.inr h)))
        simp [hi, hk]
    · dsimp only
      split <;> simp [hnm, Ne.symm hnm]

lemma mem_ids_implicitDeps {ts : List TaskDependencyConfig} {name : Id} :
    name ∈ (implicitDeps r id k ts).map (·.id) ↔
      ∃ t ∈ ts, t.target.getProjectId = some name ∧ name ≠ id ∧ k name = false := by
  have hr : ∀ d : List ProjectDependencyConfig,
      name ∈ (ts.foldl (addImplicit r id k) d).map (·.id) ↔ name ∈ d.map (·.id) ∨ ∃ t ∈ ts,
          t.target.getProjectId = some name ∧ name ≠ id ∧ k name = false := by
    induction ts with
    | nil => simp
    | cons t ts ih =>
      intro d
      rw [foldl_cons, ih, mem_ids_addImplicit]
      simp only [mem_cons, exists_eq_or_imp, or_assoc]
  refine (hr []).trans ?_
  simp only [map_nil, not_mem_nil, false_or]

end

section

variable {P C : Type} {context : WorkspaceContext P C} {resolve name : Id → Id}
  {plugins : PluginData P} {id : Id} {settings : ProjectSettings C} {configs : Id → Option C}
  {built : BuiltProject} {dep : ProjectDependencyConfig}

variable (name plugins id) in
def pluginDeps : List ProjectDependencyConfig :=
  ((plugins.data id).extensions.flatMap (·.dependencies)).map (named name)

variable (resolve name plugins id settings) in
/-- A plugin's dependency on a declared project is the declared one. -/
def PluginsKeep : Prop :=
  ∀ dep ∈ settings.dependsOn, ∀ other,
    lastNamed (pluginDeps name plugins id) other.id = some other →
    resolve other.id = resolve dep.id → lastNamed settings.dependsOn other.id = some other

variable (resolve plugins id settings) in
/-- A task that depends on a project with an explicit dependency names it like the dependency,
unless it is the project itself. -/
def TaskNamesIt (taskDep : TaskDependencyConfig) : Prop :=
  ∀ other, taskDep.target.getProjectId = some other →
    (∃ dep ∈ settings.dependsOn, resolve other = resolve dep.id) →
    other = id ∨ other ∈ (plugins.data id).aliases ∨ ∃ dep ∈ settings.dependsOn, dep.id = other

variable (context name plugins id settings) in
def knownName (other : Id) : Bool :=
  (buildDependencies context (allDependsOn name settings (plugins.data id))).any
    (fun dep => dep.id == other) || (plugins.data id).aliases.contains other

lemma mem_dependencies_assembled {ts : List BuiltTask} :
    dep ∈ (assembled context name plugins id settings ts).project.dependencies ↔
      lastNamed (settings.dependsOn ++ pluginDeps name plugins id) dep.id = some dep ∨
      dep ∈ implicitDeps context.rootProjectId id (knownName context name plugins id settings)
        (ts.flatMap (·.task.deps)) := by
  simp only [assembled, resolveProjectDependencies_eq, mem_append]
  exact or_congr_left mem_buildDependencies

lemma known_iff {o : Id} :
    knownName context name plugins id settings o ↔
      (∃ dep, lastNamed (settings.dependsOn ++ pluginDeps name plugins id) o = some dep) ∨
        o ∈ (plugins.data id).aliases := by
  have ha : (buildDependencies context (allDependsOn name settings (plugins.data id))).any
        (fun dep => dep.id == o) ↔
      ∃ dep, lastNamed (settings.dependsOn ++ pluginDeps name plugins id) o = some dep := by
    simp only [any_eq_true, beq_iff_eq]
    constructor
    · rintro ⟨dep, hd, rfl⟩
      exact ⟨dep, mem_buildDependencies.mp hd⟩
    · rintro ⟨dep, hd⟩
      have hi := id_of_lastNamed hd
      exact ⟨dep, mem_buildDependencies.mpr (hi.symm ▸ hd), hi⟩
  rw [knownName, Bool.or_eq_true, ha, contains_iff_mem]

section

variable {ts : List BuiltTask}

section

variable
  (h : KeepsExplicit resolve settings.dependsOn
    (assembled context name plugins id settings ts).project.dependencies)
include h

lemma explicit_of_plugin {o : ProjectDependencyConfig} (hd : dep ∈ settings.dependsOn)
    (ho : lastNamed (pluginDeps name plugins id) o.id = some o)
    (hr : resolve o.id = resolve dep.id) :
    lastNamed (settings.dependsOn ++ pluginDeps name plugins id) o.id = some o ∧
      o ∈ settings.dependsOn := by
  have ha : lastNamed (settings.dependsOn ++ pluginDeps name plugins id) o.id = some o := by
    rw [lastNamed_append, ho]
    rfl
  exact ⟨ha, h.alone dep hd o (mem_dependencies_assembled.mpr (.inl ha)) hr⟩

lemma pluginsKeep_of_keepsExplicit : PluginsKeep resolve name plugins id settings := by
  intro dep hd o ho hr
  obtain ⟨ha, hme⟩ := explicit_of_plugin h hd ho hr
  obtain ⟨l, hl⟩ := exists_lastNamed hme
  have hi := id_of_lastNamed hl
  -- the last explicit one of the name is in the map as well, so they are the same
  rcases mem_dependencies_assembled.mp (h.kept l (hi.symm ▸ hl)) with hm | him
  · rw [hi, ha] at hm
    rw [hl, ← Option.some.inj hm]
  · obtain ⟨t, -, -, -, hu⟩ :=
      mem_ids_implicitDeps.mp (mem_map_of_mem him)
    rw [known_iff.mpr (.inl ⟨o, hi.symm ▸ ha⟩)] at hu
    cases hu

end

lemma keepsExplicit_of_keep (hpl : PluginsKeep resolve name plugins id settings)
    (hts : ∀ t ∈ ts.flatMap (·.task.deps), TaskNamesIt resolve plugins id settings t) :
    KeepsExplicit resolve settings.dependsOn
      (assembled context name plugins id settings ts).project.dependencies where
  kept dep hd := by
    refine mem_dependencies_assembled.mpr (.inl ?_)
    rw [lastNamed_append]
    cases hp : lastNamed (pluginDeps name plugins id) dep.id with
    | none => exact hd
    | some o =>
      have hi := id_of_lastNamed hp
      have hs := hpl dep (mem_of_lastNamed hd) o (hi.symm ▸ hp) (by rw [hi])
      rw [hi, hd] at hs
      exact hs.symm
  alone dep hd o ho hr := by
    rcases mem_dependencies_assembled.mp ho with hm | him
    · rw [lastNamed_append, Option.or_eq_some_iff] at hm
      rcases hm with hp | ⟨-, hc⟩
      · exact mem_of_lastNamed (hpl dep hd o hp hr)
      · exact mem_of_lastNamed hc
    · obtain ⟨t, htsk, ht, hsl, hu⟩ :=
        mem_ids_implicitDeps.mp (mem_map_of_mem him)
      have hk : (∃ l, lastNamed (settings.dependsOn ++ pluginDeps name plugins id)
          o.id = some l) ∨ o.id ∈ (plugins.data id).aliases := by
        rcases hts t htsk o.id ht ⟨dep, hd, hr⟩ with
          hi | ha | ⟨configured, hme, hi⟩
        · exact absurd hi hsl
        · exact .inr ha
        · exact .inl (hi ▸ exists_lastNamed (mem_append_left _ hme))
      rw [known_iff.mpr hk] at hu
      cases hu

end

/-- An explicit dependency is kept in the built project if and only if nothing that plugins and
tasks add for its project is written in another way. -/
theorem explicit_dependencies_kept_iff (hsettings : context.settings id = .ok settings)
    (hconfigs : allTasks context settings (plugins.data id) = .ok configs)
    (hbuilt : buildProject context name plugins id = .ok built) :
    KeepsExplicit resolve settings.dependsOn built.project.dependencies ↔
      PluginsKeep resolve name plugins id settings ∧
        ∀ source, .ok source ∈ context.buildTasks id configs → ∀ taskDep ∈ source.task.deps,
          TaskNamesIt resolve plugins id settings taskDep := by
  obtain ⟨settings', configs', ts, hs', hc', hts, rfl⟩ := buildProject_eq_ok_iff.mp hbuilt
  rw [hsettings] at hs'
  cases hs'
  rw [hconfigs] at hc'
  cases hc'
  have hdp : ∀ taskDep, taskDep ∈ ts.flatMap (·.task.deps) ↔
      ∃ source, .ok source ∈ context.buildTasks id configs ∧ taskDep ∈ source.task.deps := by
    intro taskDep
    rw [mem_flatMap]
    constructor
    · rintro ⟨t, hta, hm⟩
      obtain ⟨r, hre, hr⟩ := mem_of_mapM_eq_ok hts hta
      obtain ⟨source, rfl, hr⟩ := bind_eq_ok hr
      rw [task_of_resolveTaskInputs hr] at hm
      exact ⟨source, hre, hm⟩
    · rintro ⟨source, hs, hm⟩
      obtain ⟨t, hr, hta⟩ := mapM_eq_ok_mem hts hs
      refine ⟨t, hta, ?_⟩
      rw [task_of_resolveTaskInputs hr]
      exact hm
  constructor
  · intro h
    refine ⟨pluginsKeep_of_keepsExplicit h, fun source hs taskDep ht => ?_⟩
    rintro o ho ⟨dep, hd, hrs⟩
    by_contra hn
    simp only [not_or] at hn
    obtain ⟨hsl, hal, hn⟩ := hn
    have hun : ∀ l, lastNamed (settings.dependsOn ++ pluginDeps name plugins id) o ≠ some l := by
      intro l hl
      rw [lastNamed_append, Option.or_eq_some_iff] at hl
      rcases hl with hp | ⟨-, hc⟩
      · have hi := id_of_lastNamed hp
        obtain ⟨-, hm⟩ := explicit_of_plugin h hd (hi.symm ▸ hp) (by rw [hi, hrs])
        exact hn ⟨l, hm, hi⟩
      · exact hn ⟨l, mem_of_lastNamed hc, id_of_lastNamed hc⟩
    have hu : knownName context name plugins id settings o = false :=
      Bool.eq_false_iff.mpr (fun h => (known_iff.mp h).elim (fun ⟨l, hl⟩ => hun l hl) hal)
    -- so the task adds a dependency of its own
    obtain ⟨a, ha, hi⟩ := mem_map.mp (mem_ids_implicitDeps.mpr
      ⟨taskDep, ((hdp taskDep).mpr ⟨source, hs, ht⟩), ho, hsl, hu⟩)
    have hm := h.alone dep hd a (mem_dependencies_assembled.mpr (.inr ha)) (by rw [hi, hrs])
    exact hn ⟨a, hm, hi⟩
  · rintro ⟨hpl, hnm⟩
    refine keepsExplicit_of_keep hpl (fun taskDep ht => ?_)
    obtain ⟨source, hs, hm⟩ := (hdp taskDep).mp ht
    exact hnm source hs taskDep hm

end

def cartContext (toolchains : List (PluginOutput Unit)) : WorkspaceContext Unit Unit where
  ids := ["app", "ui", "icons"]
  settings id := .ok
    { dependsOn := if id = "app" then [⟨"ui", .development, .explicit, none⟩] else [] }
  toolchains := toolchains
  finalizeConfig _ := .ok ()
  buildTasks _ _ := []
  hashOrder_perm _ := List.Perm.refl _
  target_eq := packagesContext.target_eq
  eq_of_target_eq := packagesContext.eq_of_target_eq

def cartPlugins (toolchains : List (PluginOutput Unit)) : PluginData Unit :=
  ((WorkspaceBuilderAsync.extendBuildData (cartContext toolchains)).toOption).getD {}

def cartOutput (dependencies : List ProjectDependency) : List (PluginOutput Unit) :=
  [⟨"javascript", [("app", { dependencies := dependencies }),
    ("ui", { aliasName := some "@moon/ui" })]⟩]

theorem cart_keeps_ui :
    ∃ built, buildProject (cartContext (cartOutput [⟨"icons", .production⟩])) (fun name => name)
        (cartPlugins (cartOutput [⟨"icons", .production⟩])) "app" = .ok built ∧
      KeepsExplicit (resolve (cartPlugins (cartOutput [⟨"icons", .production⟩])))
        [⟨"ui", .development, .explicit, none⟩] built.project.dependencies := by
  have hs : (cartContext (cartOutput [⟨"icons", .production⟩])).settings "app" =
      .ok { dependsOn := [⟨"ui", .development, .explicit, none⟩] } := rfl
  obtain ⟨built, hb⟩ : ∃ built, buildProject (cartContext (cartOutput [⟨"icons", .production⟩]))
      (fun name => name) (cartPlugins (cartOutput [⟨"icons", .production⟩])) "app" = .ok built :=
    ⟨_, rfl⟩
  refine ⟨built, hb, (explicit_dependencies_kept_iff hs rfl hb).mpr ⟨?_, ?_⟩⟩
  · intro dep hd o ho hr
    cases mem_singleton.mp hd
    have hm := mem_of_lastNamed ho
    cases mem_singleton.mp hm
    exact absurd hr (by decide)
  · intro s hsr
    cases hsr

/-- What a toolchain has found replaces the explicit dependency, or is there beside it under an
alias. -/
theorem cart_loses_ui :
    (∃ built, buildProject (cartContext (cartOutput [⟨"ui", .production⟩])) (fun name => name)
        (cartPlugins (cartOutput [⟨"ui", .production⟩])) "app" = .ok built ∧
      built.project.dependencies = [⟨"ui", .production, .implicit, none⟩]) ∧
    ∃ built, buildProject (cartContext (cartOutput [⟨"@moon/ui", .production⟩])) (fun name => name)
        (cartPlugins (cartOutput [⟨"@moon/ui", .production⟩])) "app" = .ok built ∧
      built.project.dependencies =
        [⟨"ui", .development, .explicit, none⟩, ⟨"@moon/ui", .production, .implicit, none⟩] :=
  ⟨⟨_, rfl, rfl⟩, _, rfl, rfl⟩

end Moon.Proofs
