import Moon.Proofs.PluginData
import Moon.Proofs.TaskDepsBuilder

/-!
# Building a project

What a project that is built holds: its tasks as inherited and resolved, and the dependencies that
are declared, come from plugins or follow from its tasks.
-/

namespace Moon.Proofs

open Moon.Lib WorkspaceBuilder List Prod

section

lemma mem_foldl_insertDependency {deps : List ProjectDependencyConfig}
    {dep : ProjectDependencyConfig} :
    dep ∈ deps.foldl insertDependency [] ↔
      deps.reverse.find? (fun o => o.id == dep.id) = some dep := by
  induction deps using reverseRecOn with
  | nil => simp
  | append_singleton deps l ih =>
    rw [foldl_append, reverse_append]
    simp only [foldl_cons, foldl_nil, insertDependency, mem_append,
      mem_filter, ih, mem_singleton, reverse_cons, reverse_nil, nil_append,
      cons_append, find?_cons, bne_iff_ne, ne_eq]
    by_cases hi : l.id = dep.id
    · simp [hi, eq_comm]
    · have hn : dep ≠ l := fun h => hi (h ▸ rfl)
      have hb : (l.id == dep.id) = false := beq_eq_false_iff_ne.mpr hi
      simp [Ne.symm hi, hn, hb]

def named (name : Id → Id) (dep : ProjectDependency) : ProjectDependencyConfig :=
  { id := name dep.id, scope := dep.scope, source := .implicit }

end

section

variable {deps : List ProjectDependencyConfig}

lemma task_of_resolveTaskInputs {built resolved : BuiltTask}
    (h : resolveTaskInputs deps built = .ok resolved) : resolved.task = built.task := by
  obtain ⟨inputs, -, hr⟩ := bind_eq_ok h
  cases hr
  rfl

def implicitDeps (rootProjectId : Option Id) (id : Id) (known : Id → Bool)
    (taskDeps : List TaskDependencyConfig) : List ProjectDependencyConfig :=
  taskDeps.foldl (fun deps taskDep =>
    deps ++ (createProjectDepFromTaskDep taskDep id rootProjectId (fun depProjectId =>
      deps.any (fun dep => dep.id == depProjectId) || known depProjectId)).toList) []

lemma resolveProjectDependencies_eq (r : Option Id) (ts : List BuiltTask) (p : Project) :
    resolveProjectDependencies r ts p =
      { p with
        dependencies := p.dependencies ++ implicitDeps r p.id
          (fun id => p.dependencies.any (fun dep => dep.id == id) ||
            p.aliases.contains id) (ts.flatMap (·.task.deps)) } := by
  unfold resolveProjectDependencies implicitDeps
  simp only [Bool.or_assoc]

end

section

variable {P C : Type} {c : WorkspaceContext P C} {n : Id → Id} {ps : PluginData P}
  {id : Id} {built : BuiltProject}

variable (c n ps id) in
def assembled (settings : ProjectSettings C) (tasks : List BuiltTask) : BuiltProject where
  project := resolveProjectDependencies c.rootProjectId tasks
    { id := id
      aliases := (ps.data id).aliases
      dependencies := buildDependencies c
        (allDependsOn n settings (ps.data id)) }
  tags := settings.tags
  tasks := tasks

variable (c n ps id) in
def resolvedTasks (settings : ProjectSettings C) (configs : Id → Option C) :
    Except String (List BuiltTask) :=
  (c.buildTasks id configs).mapM (fun result => do
    resolveTaskInputs (buildDependencies c (allDependsOn n settings (ps.data id))) (← result))

lemma buildProject_eq_ok_iff :
    buildProject c n ps id = .ok built ↔ ∃ st cs ts, c.settings id = .ok st ∧
        allTasks c st (ps.data id) = .ok cs ∧
        resolvedTasks c n ps id st cs = .ok ts ∧
        assembled c n ps id st ts = built := by
  constructor
  · intro h
    obtain ⟨st, hs, h⟩ := bind_eq_ok h
    obtain ⟨cs, hc, h⟩ := bind_eq_ok h
    obtain ⟨ts, ht, h⟩ := bind_eq_ok h
    cases h
    exact ⟨st, cs, ts, hs, hc, ht, rfl⟩
  · rintro ⟨st, cs, ts, hs, hc, ht, rfl⟩
    unfold buildProject
    rw [hs]
    change (allTasks c st (ps.data id) >>= _) = _
    rw [hc]
    change (resolvedTasks c n ps id st cs >>= _) = _
    rw [ht]
    rfl

end

end Moon.Proofs
