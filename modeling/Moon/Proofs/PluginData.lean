import Moon.Lib.First
import Moon.WorkspaceBuilder

/-!
# What plugins give to projects

The first project that claims an alias gets it, so the order of plugins matters only where two
of them give the same alias to different projects.
-/

namespace Moon.Proofs

open Moon.Lib WorkspaceBuilder List Function Option

section

variable {P C : Type} {c : WorkspaceContext P C}

/-- One project's part of a plugin's output. -/
structure PluginEntry (P : Type) where
  inheritAliases : Bool
  id : Id
  output : ExtendProjectOutput P

variable (c) in
/-- The extended projects of the outputs, in order. -/
def pluginEntries (isToolchain : Bool) (outputs : List (PluginOutput P)) : List (PluginEntry P) :=
  outputs.flatMap (fun output => output.extendedProjects.map (fun entry =>
    ⟨!isToolchain || c.inheritAliases output.pluginId, entry.1, entry.2⟩))

variable (c) in
/-- The order of `WorkspaceBuilder`: extensions before toolchains. -/
def syncEntries : List (PluginEntry P) :=
  pluginEntries c false c.extensions ++ pluginEntries c true c.toolchains

variable (c) in
/-- The order of `WorkspaceBuilderAsync`: toolchains before extensions. -/
def asyncEntries : List (PluginEntry P) :=
  pluginEntries c true c.toolchains ++ pluginEntries c false c.extensions

variable (c) in
def applyEntry (plugins : PluginData P) (entry : PluginEntry P) :
    Except ProjectGraphError (PluginData P) :=
  applyExtendProject c entry.inheritAliases plugins (entry.id, entry.output)

variable (c) in
def claims (name : String) (entry : PluginEntry P) : Bool :=
  entry.inheritAliases && entry.output.aliasName == some name && c.isValidId name

variable (c) in
/-- What the entries come to. An alias that is the id of a project is kept by that project only,
and is not in the map. -/
structure Extended (entries : List (PluginEntry P)) (plugins : PluginData P) : Prop where
  known : ∀ entry ∈ entries, entry.id ∈ c.ids
  aliases : ∀ name, plugins.aliases name =
    if name ∈ c.ids then none else (entries.find? (claims c name)).map (·.id)
  owned : ∀ id name, name ∈ (plugins.data id).aliases ↔ plugins.aliases name = some id ∨
    name = id ∧ ∃ entry ∈ entries, entry.id = id ∧ claims c id entry = true

lemma foldlM_applyExtendOutput (i : Bool) (os : List (PluginOutput P)) (ps : PluginData P) :
    os.foldlM (applyExtendOutput c i) ps = (pluginEntries c i os).foldlM (applyEntry c) ps := by
  induction os generalizing ps with
  | nil => rfl
  | cons o os ih =>
    have hh : applyExtendOutput c i ps o = (o.extendedProjects.map (fun e => PluginEntry.mk
          (!i || c.inheritAliases o.pluginId) e.1 e.2)).foldlM (applyEntry c) ps := by
      rw [foldlM_map]
      rfl
    rw [foldlM_cons, hh, pluginEntries, flatMap_cons, foldlM_append]
    congr 1
    funext next
    exact ih next

variable (c) in
lemma extendProjectsFromPlugins_eq :
    extendProjectsFromPlugins c = (syncEntries c).foldlM (applyEntry c) {} := by
  unfold extendProjectsFromPlugins syncEntries
  simp only [foldlM_append, foldlM_applyExtendOutput]

variable (c) in
lemma extendBuildData_eq :
    WorkspaceBuilderAsync.extendBuildData c = (asyncEntries c).foldlM (applyEntry c) {} := by
  unfold WorkspaceBuilderAsync.extendBuildData asyncEntries
  simp only [foldlM_append, foldlM_applyExtendOutput]

section

variable {ps : PluginData P} {id : Id} {a : String}

variable (c ps id a) in
/-- The project gets the alias. -/
def Takes : Prop :=
  c.isValidId a = true ∧ (a = id ∨ a ∉ c.ids) ∧ ps.aliases a = none

lemma trackAlias_of_not_takes (h : ¬ Takes c ps id a) : trackAlias c ps id a = ps := by
  unfold trackAlias
  split
  · rfl
  next hv =>
    split
    · rfl
    next hown =>
      split
      · rfl
      next hf =>
        have ht : Takes c ps id a := by
          simp only [Bool.not_eq_true', Bool.not_eq_false] at hv
          simp only [Bool.not_eq_true, isSome_eq_false_iff, isNone_iff_eq_none] at hf
          exact ⟨hv, by tauto, hf⟩
        exact absurd ht h

lemma trackAlias_of_takes (h : Takes c ps id a) :
    trackAlias c ps id a =
      { aliases :=
          if a ≠ id then update ps.aliases a (some id)
          else ps.aliases
        data := update ps.data id
          { ps.data id with aliases := (ps.data id).aliases.insert a } } := by
  obtain ⟨hv, hown, hf⟩ := h
  have ho : ¬ (a ≠ id ∧ a ∈ c.ids) := by tauto
  unfold trackAlias
  rw [hv, hf, if_neg ho]
  rfl

lemma trackAlias_aliases (hi : id ∈ c.ids) (n : String) :
    (trackAlias c ps id a).aliases n = if n = a ∧ c.isValidId a ∧ a ∉ c.ids then
        (ps.aliases n).or (some id)
      else ps.aliases n := by
  by_cases ht : Takes c ps id a
  · rw [trackAlias_of_takes ht]
    obtain ⟨hv, ho, hf⟩ := ht
    by_cases hnm : n = a
    · subst hnm
      by_cases hs : n = id
      · simp [hs, hi]
      · have hn : n ∉ c.ids := ho.resolve_left hs
        simp [hs, hn, hv, hf]
    · simp only [hnm, false_and, if_false]
      split
      · exact update_of_ne hnm _ _
      · rfl
  · rw [trackAlias_of_not_takes ht]
    split
    next hnm =>
      obtain ⟨rfl, hv, hn⟩ := hnm
      obtain ⟨owner, how⟩ := ne_none_iff_exists'.mp (fun hf => ht ⟨hv, .inr hn, hf⟩)
      rw [how]
      rfl
    next => rfl

lemma trackAlias_owned (o : Id) (n : String) :
    n ∈ ((trackAlias c ps id a).data o).aliases ↔ n ∈ (ps.data o).aliases ∨
        o = id ∧ n = a ∧ Takes c ps id a := by
  by_cases ht : Takes c ps id a
  · rw [trackAlias_of_takes ht]
    by_cases ho : o = id
    · subst ho
      simp [ht, or_comm]
    · simp [ho]
  · simp [trackAlias_of_not_takes ht, ht]

end

section

variable {ps ps' : PluginData P} {e : PluginEntry P} {es es' : List (PluginEntry P)}

variable (c ps e) in
def trackEntry : PluginData P :=
  match e.inheritAliases, e.output.aliasName with
  | true, some a => trackAlias c ps e.id a
  | _, _ => ps

lemma trackEntry_aliases (hid : e.id ∈ c.ids) (n : String) :
    (trackEntry c ps e).aliases n = if claims c n e ∧ n ∉ c.ids then
        (ps.aliases n).or (some e.id)
      else ps.aliases n := by
  unfold trackEntry claims
  split
  next a hi ha =>
    rw [trackAlias_aliases hid]
    by_cases hnm : n = a
    · simp [hnm, hi, ha]
    · simp [hnm, hi, ha, Ne.symm hnm]
  next hn =>
    rw [if_neg]
    rintro ⟨hc, -⟩
    simp only [Bool.and_eq_true, beq_iff_eq] at hc
    exact hn n hc.1.1 hc.1.2

lemma trackEntry_owned (o : Id) (n : String) :
    n ∈ ((trackEntry c ps e).data o).aliases ↔ n ∈ (ps.data o).aliases ∨ o = e.id ∧ claims c n e ∧
        (n = e.id ∨ n ∉ c.ids) ∧ ps.aliases n = none := by
  unfold trackEntry claims
  split
  next a hi ha =>
    rw [trackAlias_owned]
    by_cases hnm : n = a
    · simp [hnm, hi, ha, Takes]
    · simp [hnm, hi, ha, Ne.symm hnm]
  next hn =>
    refine ⟨.inl, fun h => h.elim (fun h => h) (fun h => ?_)⟩
    obtain ⟨-, hc, -⟩ := h
    simp only [Bool.and_eq_true, beq_iff_eq] at hc
    exact absurd hc.1.2 (hn n hc.1.1)

variable (ps) in
lemma applyEntry_ok (hi : e.id ∈ c.ids) :
    ∃ ps', applyEntry c ps e = .ok ps' ∧
      ps'.aliases = (trackEntry c ps e).aliases ∧
      ∀ id, (ps'.data id).aliases = ((trackEntry c ps e).data id).aliases := by
  have ha : applyEntry c ps e = .ok
      { trackEntry c ps e with
        data := update (trackEntry c ps e).data e.id
          { (trackEntry c ps e).data e.id with
            extensions := ((trackEntry c ps e).data e.id).extensions ++ [e.output] } } := by
    unfold applyEntry applyExtendProject
    rw [if_neg (not_not.mpr hi)]
    rfl
  refine ⟨_, ha, rfl, fun id => ?_⟩
  by_cases ho : id = e.id
  · simp [ho]
  · simp [ho]

lemma Extended.applyEntry (hext : Extended c es ps) (hi : e.id ∈ c.ids) :
    ∃ ps', Moon.Proofs.applyEntry c ps e = .ok ps' ∧ Extended c (es ++ [e]) ps' := by
  obtain ⟨ps', hap, ha, how⟩ := applyEntry_ok ps hi
  refine ⟨ps', hap, ?_, fun n => ?_, fun id n => ?_⟩
  · exact forall_mem_append.mpr ⟨hext.known, forall_mem_singleton.mpr hi⟩
  · rw [ha, trackEntry_aliases hi, hext.aliases, find?_append]
    by_cases hn : n ∈ c.ids
    · simp [hn]
    · by_cases hc : claims c n e
      · cases es.find? (claims c n) <;> simp [hn, hc]
      · simp [hn, hc]
  · rw [ha, how, trackEntry_owned, hext.owned, trackEntry_aliases hi]
    have hown : n = e.id → ps.aliases n = none := by
      rintro rfl
      rw [hext.aliases, if_pos hi]
    have hl : (∃ o ∈ es ++ [e], o.id = id ∧ claims c id o) ↔
        (∃ o ∈ es, o.id = id ∧ claims c id o) ∨ e.id = id ∧ claims c id e := by
      simp [or_and_right, exists_or]
    rw [hl]
    split
    next hnw =>
      have hne : n ≠ e.id := fun h => hnw.2 (h ▸ hi)
      rw [or_eq_some_iff, some.injEq]
      grind
    next => grind

lemma extended_nil : Extended c [] ({} : PluginData P) where
  known := by simp
  aliases := by simp
  owned := by simp

lemma Extended.run (hext : Extended c es ps) (hk : ∀ e ∈ es', e.id ∈ c.ids) :
    ∃ ps', es'.foldlM (Moon.Proofs.applyEntry c) ps = .ok ps' ∧ Extended c (es ++ es') ps' := by
  induction es' generalizing es ps with
  | nil => exact ⟨ps, rfl, by rwa [append_nil]⟩
  | cons e es' ih =>
    obtain ⟨hh, hr⟩ := forall_mem_cons.mp hk
    obtain ⟨next, hnx, hn⟩ := hext.applyEntry hh
    obtain ⟨ps', hp', hex'⟩ := ih hn hr
    refine ⟨ps', ?_, by rwa [append_cons]⟩
    rw [foldlM_cons, hnx]
    exact hp'

lemma known_of_foldlM_applyEntry (h : es.foldlM (applyEntry c) ps = .ok ps') :
    ∀ e ∈ es, e.id ∈ c.ids := by
  induction es generalizing ps with
  | nil => simp
  | cons e es ih =>
    rw [foldlM_cons] at h
    obtain ⟨next, hn, hr⟩ := bind_eq_ok h
    refine forall_mem_cons.mpr ⟨?_, ih hr⟩
    by_contra hu
    unfold applyEntry applyExtendProject at hn
    rw [if_pos hu] at hn
    cases hn

end

section

variable {es : List (PluginEntry P)} {ps : PluginData P} {n : String}

def resolve (plugins : PluginData P) (name : String) : Id :=
  WorkspaceBuilderAsync.resolveId plugins.aliases name

section

variable (hext : Extended c es ps)
include hext

lemma Extended.mem_ids {id : Id} (h : ps.aliases n = some id) : id ∈ c.ids ∧ n ∉ c.ids := by
  rw [hext.aliases] at h
  split at h
  · cases h
  next hn =>
    obtain ⟨e, hen, rfl⟩ := map_eq_some_iff.mp h
    exact ⟨hext.known e (mem_of_find?_eq_some hen), hn⟩

lemma Extended.resolve_of_mem (h : n ∈ c.ids) : resolve ps n = n := by
  have hn : ps.aliases n = none := by rw [hext.aliases, if_pos h]
  unfold resolve WorkspaceBuilderAsync.resolveId
  rw [hn]
  rfl

lemma Extended.resolveId_eq : resolveId c ps = resolve ps := by
  funext n
  unfold resolveId
  split
  next hn => rw [hext.resolve_of_mem hn]
  next hn =>
    have ho : aliasOwner c ps n = ps.aliases n := by
      unfold aliasOwner
      have how : ∀ id ∈ c.ids, ((ps.data id).aliases.contains n ↔ ps.aliases n = some id) := by
        intro id hi
        have hne : n ≠ id := fun h => hn (h ▸ hi)
        rw [contains_iff_mem, hext.owned]
        simp [hne]
      cases ha : ps.aliases n with
      | none =>
        rw [find?_eq_none]
        intro id hi hc
        rw [how id hi, ha] at hc
        cases hc
      | some id =>
        have hi := (hext.mem_ids ha).1
        have hs : (c.ids.find? (fun id =>
            (ps.data id).aliases.contains n)).isSome :=
          find?_isSome.mpr ⟨id, hi, (how id hi).mpr ha⟩
        obtain ⟨o, ho⟩ := isSome_iff_exists.mp hs
        have hc := find?_some ho
        have hf := (how o (mem_of_find?_eq_some ho)).mp hc
        rw [ha] at hf
        rw [ho, hf]
    rw [ho]
    rfl

end

end

/-- Every alias has one owner, the lists of the projects and the map tell the same one, and so
do both resolvers. -/
theorem aliases_resolve_to_owner (context : WorkspaceContext P C) (entries : List (PluginEntry P))
    (plugins : PluginData P) (h : entries.foldlM (applyEntry context) {} = .ok plugins) :
    (∀ name id other, name ∈ (plugins.data id).aliases → name ∈ (plugins.data other).aliases →
      id = other) ∧
    (∀ name id, name ∈ (plugins.data id).aliases → name ∈ context.ids → name = id) ∧
    (∀ name id, name ≠ id → (name ∈ (plugins.data id).aliases ↔ plugins.aliases name = some id)) ∧
    (∀ name id, name ∈ (plugins.data id).aliases ∨ name = id ∧ id ∈ context.ids →
      resolveId context plugins name = id ∧
        WorkspaceBuilderAsync.resolveId plugins.aliases name = id) ∧
    ∀ name id, (name ≠ id ∧ name ∈ context.ids ∨
        ∃ other, other ≠ id ∧ plugins.aliases name = some other) →
      trackAlias context plugins id name = plugins := by
  obtain ⟨_, hrn, hext⟩ := extended_nil.run (known_of_foldlM_applyEntry h)
  cases h.symm.trans hrn
  rw [nil_append] at hext
  have how (name : String) (id : Id) (hn : name ∈ (plugins.data id).aliases) :
      plugins.aliases name = some id ∧ name ∉ context.ids ∨ name = id ∧ id ∈ context.ids := by
    rcases (hext.owned id name).mp hn with ha | ⟨rfl, e, hen, rfl, -⟩
    · exact .inl ⟨ha, (hext.mem_ids ha).2⟩
    · exact .inr ⟨rfl, hext.known e hen⟩
  have hr (name : String) (id : Id)
      (hn : name ∈ (plugins.data id).aliases ∨ name = id ∧ id ∈ context.ids) :
      resolve plugins name = id := by
    rcases hn.elim (how name id) .inr with ⟨ha, -⟩ | ⟨rfl, hi⟩
    · simp [resolve, WorkspaceBuilderAsync.resolveId, ha]
    · exact hext.resolve_of_mem hi
  refine ⟨fun name id other hi ho => ?_, fun name id hi hm => ?_, fun name id hne => ?_,
    fun name id hn => ?_, fun name id hc => trackAlias_of_not_takes ?_⟩
  · rw [← hr name id (.inl hi), hr name other (.inl ho)]
  · exact (how name id hi).elim (fun ha => absurd hm ha.2) And.left
  · rw [hext.owned]
    simp [hne]
  · rw [hext.resolveId_eq]
    exact ⟨hr name id hn, hr name id hn⟩
  · rintro ⟨-, hown, hf⟩
    rcases hc with ⟨hne, hm⟩ | ⟨other, -, ha⟩
    · exact hown.elim hne (fun hnt => hnt hm)
    · rw [hf] at ha
      cases ha

end

def packagesContext : WorkspaceContext Unit Unit where
  ids := ["web", "api"]
  settings _ := .ok {}
  finalizeConfig _ := .ok ()
  buildTasks _ _ := []
  hashOrder_perm _ := .refl _
  target_eq := by simp
  eq_of_target_eq := by simp

def packageEntries : List (PluginEntry Unit) :=
  [⟨true, "web", { aliasName := some "api" }⟩, ⟨true, "api", { aliasName := some "@a" }⟩,
    ⟨true, "web", { aliasName := some "@a" }⟩]

theorem packages_resolve_to_owner :
    ∃ plugins, packageEntries.foldlM (applyEntry packagesContext) {} = .ok plugins ∧
      resolveId packagesContext plugins "@a" = "api" ∧
      WorkspaceBuilderAsync.resolveId plugins.aliases "@a" = "api" :=
  ⟨_, rfl, (aliases_resolve_to_owner packagesContext packageEntries _ rfl).2.2.2.1 "@a" "api"
    (.inl (by decide))⟩

end Moon.Proofs
