import Moon.Lib.First
import Moon.Proofs.AffectedTracker
import Moon.Proofs.Builder.Visits

/-!
# The depth of a visit

The depth is counted in eight bits. Up to that, it is the number of tasks on the way from the
one that was requested, and then it starts over, as if another one had been requested.
-/

namespace Moon.Proofs.Builder

open Moon.Lib List WorkspaceGraph ActionGraphBuilder

variable {A : Type}

/-- `internal_run_task` with an assertion about the distance from the requested task and the depth,
at the place where the depth is tested and counted up. -/
def assertRunTask (holds : Nat → UInt8 → Prop) [∀ distance depth, Decidable (holds distance depth)]
    (error : ActionGraphError) (env : BuilderEnv A) :
    (fuel distance : Nat) → TaskVisit → BuildM A (Option Nat)
  | 0, _, _ => throw .outOfFuel
  | fuel + 1, distance, visit => do
    let project ← orFail .workspace (getVisitProject env visit)
    if !(← isTaskAffected env visit.task visit.reqs) then
      return none
    else
      let builder ← get
      if visit.task.target ∈ builder.passthroughTargets then
        return none
      else if ¬ holds distance visit.state.depth then
        throw error
      else if visit.isPassthrough then
        visitPassthrough env (assertRunTask holds error env fuel (distance + 1)) visit
      else
        visitNode env fuel (assertRunTask holds error env fuel (distance + 1)) project visit

/-- The assertion makes no difference, whatever error it would fail with. -/
def DepthAlways (holds : Nat → UInt8 → Prop) [∀ distance depth, Decidable (holds distance depth)]
    (env : BuilderEnv A) (fuel : Nat) (visit : TaskVisit) (b : ActionGraphBuilder A) : Prop :=
  ∀ error, (assertRunTask holds error env fuel 0 visit).run b =
    (internalRunTask env fuel visit).run b

/-- The depth is the distance when it is tested, only the requested task is in a direct scope,
and the depth can be counted up. -/
def CountsDistance (distance : Nat) (depth : UInt8) : Prop :=
  depth.toNat = distance ∧
  (UpstreamScope.isInScope .direct depth = true ↔ distance = 0) ∧
  (DownstreamScope.isInScope .direct depth = true ↔ distance = 0) ∧
  (depth + 1).toNat = distance + 1

instance (distance : Nat) (depth : UInt8) : Decidable (CountsDistance distance depth) :=
  inferInstanceAs (Decidable (_ ∧ _))

lemma countsDistance_iff (d : Nat) : CountsDistance d (UInt8.ofNat d) ↔ d < 255 := by
  unfold CountsDistance
  constructor
  · rintro ⟨hd, -, -, hn⟩
    rw [UInt8.toNat_ofNat'] at hd
    rw [UInt8.toNat_add, UInt8.toNat_ofNat'] at hn
    simp only [UInt8.toNat_one] at hn
    omega
  · intro h
    have hd : (UInt8.ofNat d).toNat = d := by
      rw [UInt8.toNat_ofNat']
      exact Nat.mod_eq_of_lt (by omega)
    have hz : UInt8.ofNat d = 0 ↔ d = 0 := by
      rw [← UInt8.toNat_inj, hd]
      rfl
    refine ⟨hd, by simp [UpstreamScope.isInScope, hz], by simp [DownstreamScope.isInScope, hz], ?_⟩
    rw [UInt8.toNat_add, hd]
    exact Nat.mod_eq_of_lt (by simpa using Nat.succ_lt_succ h)

/-- Two ways to run the visits behind a visit that do not differ. -/
structure Agree (run run' : TaskVisit → BuildM A (Option Nat)) (visit : TaskVisit) : Prop where
  dependency : ∀ dep task, run (visit.dependency dep task) = run' (visit.dependency dep task)
  dependent : ∀ task, run (visit.dependent task) = run' (visit.dependent task)

section

variable {env : BuilderEnv A} {run run' : TaskVisit → BuildM A (Option Nat)} {v : TaskVisit}
  (h : Agree run run' v)
include h

lemma Agree.runDependencyTasks (dep : TaskDependencyConfig) (ts : List Task) (ps : Option Nat) :
    runDependencyTasks run v dep ts ps = runDependencyTasks run' v dep ts ps := by
  induction ts generalizing ps with
  | nil => rfl
  | cons t ts ih => simp only [ActionGraphBuilder.runDependencyTasks, h.dependency, ih]

lemma Agree.runTaskDependencies (deps : List TaskDependencyConfig) (ps : Option Nat) :
    runTaskDependencies env run v deps ps = runTaskDependencies env run' v deps ps := by
  induction deps generalizing ps with
  | nil => rfl
  | cons dep deps ih =>
    simp only [ActionGraphBuilder.runTaskDependencies, h.runDependencyTasks, ih]

lemma Agree.runDependentTasks (ts : List Task) :
    runDependentTasks run v ts = runDependentTasks run' v ts := by
  induction ts with
  | nil => rfl
  | cons t ts ih => simp only [ActionGraphBuilder.runDependentTasks, h.dependent, ih]

lemma Agree.expandDependents (expand : Bool) :
    expandDependents env run v expand = expandDependents env run' v expand := by
  have hd (ts : List Target) :
      runTaskDependents env run v ts = runTaskDependents env run' v ts := by
    induction ts with
    | nil => rfl
    | cons t ts ih => simp only [runTaskDependents, h.runDependentTasks, ih]
  simp only [ActionGraphBuilder.expandDependents, hd]

lemma Agree.visitPassthrough : visitPassthrough env run v = visitPassthrough env run' v := by
  simp only [ActionGraphBuilder.visitPassthrough, h.expandDependents]

lemma Agree.visitNode (fuel : Nat) (project : Project) :
    visitNode env fuel run project v = visitNode env fuel run' project v := by
  simp only [ActionGraphBuilder.visitNode, revisitNode, visitNewNode, expandIgnoredDependencies,
    expandDependencies, expandOrIgnoreDependents, h.runTaskDependencies, h.expandDependents]

end

/-- The depth of a visit is its distance in eight bits, so that an assertion about other depths
does not matter. -/
lemma assertRunTask_congr (holds holds' : Nat → UInt8 → Prop)
    [∀ distance depth, Decidable (holds distance depth)]
    [∀ distance depth, Decidable (holds' distance depth)]
    (h : ∀ d, holds d (UInt8.ofNat d) ↔ holds' d (UInt8.ofNat d)) (error : ActionGraphError)
    (env : BuilderEnv A) (fuel d : Nat) (v : TaskVisit) (hv : v.state.depth = UInt8.ofNat d) :
    assertRunTask holds error env fuel d v = assertRunTask holds' error env fuel d v := by
  induction fuel generalizing d v with
  | zero => rfl
  | succ fuel ih =>
    have ha : Agree (assertRunTask holds error env fuel (d + 1))
        (assertRunTask holds' error env fuel (d + 1)) v :=
      ⟨fun _ _ => ih _ _ (by simp [TaskVisit.dependency, hv]),
        fun _ => ih _ _ (by simp [TaskVisit.dependent, hv])⟩
    simp only [assertRunTask, ha.visitPassthrough, ha.visitNode, hv, h d]

/-- Without anything to assert it is `internal_run_task`. -/
lemma assertRunTask_true (error : ActionGraphError) (env : BuilderEnv A) (fuel d : Nat)
    (v : TaskVisit) :
    assertRunTask (fun _ _ => True) error env fuel d v = internalRunTask env fuel v := by
  induction fuel generalizing d v with
  | zero => rfl
  | succ fuel ih =>
    have ha : Agree (assertRunTask (fun _ _ => True) error env fuel (d + 1))
        (internalRunTask env fuel) v := ⟨fun _ _ => ih _ _, fun _ => ih _ _⟩
    simp only [assertRunTask, internalRunTask, ha.visitPassthrough, ha.visitNode, not_true_eq_false,
      if_false]

def chainTarget (n : Nat) : Target := Target.new "app" (String.ofList (replicate n 'x'))

def chainTask : Nat → Task
  | 0 => { target := chainTarget 0 }
  | n + 1 => { target := chainTarget (n + 1), deps := [{ target := chainTarget n }] }

/-- Each task has the next one as its dependent, and nothing is set up or synced. -/
def chainEnv (length : Nat) : BuilderEnv AffectedMarks :=
  let workspace : WorkspaceGraph :=
    { projects := [{ id := "app" }]
      tasks := (range (length + 1)).map chainTask
      taskDependents := fun target =>
        match target.task with
        | .id name => if name.length < length then [chainTarget (name.length + 1)] else []
        | _ => [] }
  { workspace := workspace
    options := { syncProjects := .enabled false, syncWorkspace := false }
    tracker := affectedTracker { workspace := workspace } }

def chainVisit (n : Nat) : TaskVisit where
  task := chainTask n
  reqs := { dependencies := .direct, dependents := .deep }
  state := ⟨UInt8.ofNat n, false⟩

lemma chainTask_target (n : Nat) : (chainTask n).target = chainTarget n := by
  cases n <;> rfl

lemma chainTarget_injective : Function.Injective chainTarget := by
  intro n m h
  have hn := TargetTaskScope.id.inj (congrArg Target.task h)
  simpa using congrArg List.length (String.ofList_injective hn)

lemma resolve_chain {l n : Nat} (h : n ≤ l) :
    (chainEnv l).workspace.resolveTasksFromTarget none (chainTarget n) true =
      .ok [chainTask n] := by
  have hd : (((range (l + 1)).map chainTask).map Task.target).Nodup := by
    rw [map_map]
    refine nodup_range.map fun n m h => ?_
    simp only [Function.comp_apply, chainTask_target] at h
    exact chainTarget_injective h
  have hf := find?_eq_some_of_key hd (mem_map_of_mem (mem_range.mpr (Nat.lt_succ_of_le h)))
    (fun o => beq_iff_eq (b := (chainTask n).target))
  rw [chainTask_target] at hf
  have hg : (chainEnv l).workspace.getTaskFromProject "app"
      (String.ofList (replicate n 'x')) = .ok (chainTask n) := by
    change (chainEnv l).workspace.getTask (chainTarget n) = _
    unfold getTask
    rw [show (chainEnv l).workspace.tasks = (range (l + 1)).map chainTask from rfl, hf]
    rfl
  have hp : (chainEnv l).workspace.targetProjects none (chainTarget n) =
      .ok ([{ id := "app" }], true) := rfl
  simp [resolveTasksFromTarget, hp, projectTasks, hg,
    show (chainTarget n).task = .id (String.ofList (replicate n 'x')) from rfl, bind, Except.bind,
    pure, Except.pure]

/-- A builder in which only earlier tasks of the chain have been inserted. -/
structure BeforeTask (n : Nat) (b : ActionGraphBuilder AffectedMarks) : Prop where
  affected : b.affected = none
  passthroughTargets : b.passthroughTargets = []
  nodes : ∀ node, HasNode b node → ∃ m < n, node.target = chainTarget m

section

variable {holds : Nat → UInt8 → Prop} [∀ distance depth, Decidable (holds distance depth)]
  {error : ActionGraphError} {l n k fuel : Nat}
  {E : ActionGraphError → ActionGraphBuilder AffectedMarks → Prop}

/-- A new task of the chain comes to its dependent. -/
lemma chain_visitNode (hk : k < 256) (hl : k < l)
    {run : TaskVisit → BuildM AffectedMarks (Option Nat)}
    (hr : Triple (BeforeTask (k + 1)) (run (chainVisit (k + 1))) (fun _ _ => False) E) :
    Triple (BeforeTask k) (visitNode (chainEnv l) (fuel + 1) run { id := "app" } (chainVisit k))
      (fun _ _ => False) E := by
  have htarget : (chainVisit k).task.target = chainTarget k := chainTask_target k
  have htake : Triple (BeforeTask k) (takeIgnoredDependencies (chainVisit k))
      (fun _ => BeforeTask k) E :=
    Triple.get_bind_keep fun _ _ => Triple.ite
      (fun _ => Triple.modify_bind (fun _ h => ⟨h.1, h.2, h.3⟩) (Triple.pure fun _ h => h))
      (fun _ => Triple.pure fun _ h => h)
  have htake' : Triple (BeforeTask k) (takeIgnoredDependents (chainVisit k))
      (fun _ => BeforeTask k) E :=
    Triple.get_bind_keep fun _ _ => Triple.ite
      (fun _ => Triple.modify_bind (fun _ h => ⟨h.1, h.2, h.3⟩) (Triple.pure fun _ h => h))
      (fun _ => Triple.pure fun _ h => h)
  have hinit : initialEdges (chainEnv l) (fuel + 1) { id := "app" } (chainVisit k) = pure [] := by
    cases k <;> rfl
  have hinsert : Triple (BeforeTask k)
      (insertNode (.runTask ((chainVisit k).node (chainEnv l).fxHash)))
      (fun _ => BeforeTask (k + 1)) E := by
    refine Triple.get_bind_keep fun _ _ => Triple.modify_bind (M := BeforeTask (k + 1))
      (fun b hb => ⟨hb.1, hb.2, fun node hn => ?_⟩) (Triple.pure fun _ h => h)
    rcases mem_append.mp hn with ho | hn
    · obtain ⟨m, hm, ht⟩ := hb.nodes node ho
      exact ⟨m, by omega, ht⟩
    · cases mem_singleton.mp hn
      exact ⟨k, by omega, htarget⟩
  have hdeps : Triple (BeforeTask (k + 1)) (expandDependencies (chainEnv l) run (chainVisit k))
      (fun r b => r = [] ∧ BeforeTask (k + 1) b) E := by
    cases k with
    | zero => exact Triple.pure fun _ h => ⟨rfl, h⟩
    | succ k =>
      have hs : (chainVisit (k + 1)).shouldRunDependencies = false := by
        have hz : UInt8.ofNat (k + 1) ≠ 0 := by
          rw [Ne, ← UInt8.toNat_inj, UInt8.toNat_ofNat', Nat.mod_eq_of_lt hk]
          exact Nat.succ_ne_zero k
        exact beq_eq_false_iff_ne.mpr hz
      rw [expandDependencies, if_neg (by simp [chainVisit, chainTask]), hs]
      exact Triple.modify_bind (fun _ h => ⟨h.1, h.2, h.3⟩) (Triple.pure fun _ h => ⟨rfl, h⟩)
  have hdependents : Triple (BeforeTask (k + 1))
      (expandOrIgnoreDependents (chainEnv l) run (chainVisit k)) (fun _ _ => False) E := by
    have hts : (chainEnv l).workspace.taskDependents (chainVisit k).task.target =
        [chainTarget (k + 1)] := by
      rw [htarget]
      simp [chainEnv, chainTarget, Target.new, hl]
    have hnext : (chainVisit k).dependent (chainTask (k + 1)) = chainVisit (k + 1) := by
      simp [TaskVisit.dependent, chainVisit]
    have hs : (chainVisit k).shouldRunDependents = true := rfl
    rw [expandOrIgnoreDependents, if_pos hs, expandDependents, if_pos rfl, hts, runTaskDependents]
    refine Triple.lift_bind (fun ts hts => ?_) fun e s he => ?_
    · rw [show (chainEnv l).allQuery = none from rfl, resolve_chain hl] at hts
      cases hts
      rw [runDependentTasks, hnext]
      exact Triple.bind (M := fun _ _ => False) (Triple.bind hr fun _ s hs => hs.elim)
        fun _ s hs => hs.elim
    · rw [show (chainEnv l).allQuery = none from rfl, resolve_chain hl] at he
      cases he
  refine Triple.bind htake fun _ => Triple.bind htake' fun _ => Triple.get_bind fun b hb => ?_
  have hnew : b.getIndexFromNode (.runTask ((chainVisit k).node (chainEnv l).fxHash)) = none := by
    refine idxOf?_eq_none_iff.mpr fun hm => ?_
    obtain ⟨m, hm, ht⟩ := hb.nodes _ hm
    exact hm.ne' (chainTarget_injective (htarget.symm.trans ht))
  rw [hnew]
  simp only [visitNewNode, hinit, pure_bind]
  refine Triple.bind (hinsert.pre fun _ h => h ▸ hb) fun index => Triple.bind hdeps fun r => ?_
  rintro s ⟨rfl, hs⟩
  exact (Triple.bind hdependents fun _ s hs => hs.elim) s hs

lemma chain_enters
    (hfails : ¬ holds k (UInt8.ofNat k) → ∀ b, E error b)
    (hv : holds k (UInt8.ofNat k) → Triple (BeforeTask k)
      (visitNode (chainEnv l) fuel (assertRunTask holds error (chainEnv l) fuel (k + 1))
        { id := "app" } (chainVisit k)) (fun _ _ => False) E) :
    Triple (BeforeTask k) (assertRunTask holds error (chainEnv l) (fuel + 1) k (chainVisit k))
      (fun _ _ => False) E := by
  rw [assertRunTask]
  apply Triple.lift_bind
  · intro project hp
    have hproject : getVisitProject (chainEnv l) (chainVisit k) = .ok { id := "app" } := by
      cases k <;> rfl
    rw [hproject] at hp
    cases hp
    have haff : Triple (BeforeTask k)
        (isTaskAffected (chainEnv l) (chainVisit k).task (chainVisit k).reqs)
        (fun r s => r = true ∧ BeforeTask k s) E := by
      refine Triple.get_bind fun s hs => ?_
      rw [hs.affected]
      exact Triple.pure fun _ h => ⟨rfl, h ▸ hs⟩
    refine Triple.bind haff fun r => ?_
    cases r with
    | false => exact fun s hs => by cases hs.1
    | true =>
      refine Triple.get_bind fun s hs => ?_
      rw [if_neg (by simp [hs.2.passthroughTargets])]
      refine Triple.ite (fun hn => Triple.throw fun s _ => hfails hn s) fun hh => ?_
      rw [if_neg (by simp [TaskVisit.isPassthrough, chainVisit])]
      exact (hv (not_not.mp hh)).pre fun s' h => h ▸ hs.2
  · intro e s he
    have hproject : getVisitProject (chainEnv l) (chainVisit k) = .ok { id := "app" } := by
      cases k <;> rfl
    rw [hproject] at he
    cases he

variable (error) in
/-- The run comes to the first place of the chain where the assertion does not hold. -/
lemma chain_asserts (hn : ¬ holds n (UInt8.ofNat n)) (hl : n ≤ l) (hsize : n ≤ 256)
    (hbefore : ∀ d < n, holds d (UInt8.ofNat d)) (fuel m k : Nat) (hk : k + m = n) :
    Triple (BeforeTask k) (assertRunTask holds error (chainEnv l) (fuel + m + 1) k (chainVisit k))
      (fun _ _ => False) (fun e _ => e = error) := by
  induction m generalizing k with
  | zero =>
    cases hk
    exact chain_enters (fun _ _ => rfl) fun hh => absurd hh hn
  | succ m ih =>
    refine chain_enters (fun hh => absurd (hbefore k (by omega)) hh) fun _ => ?_
    exact chain_visitNode (by omega) (by omega) (ih (k + 1) (by omega))

lemma chain_fails (hn : ¬ holds n (UInt8.ofNat n)) (hl : n ≤ l) (hsize : n ≤ 256)
    (hbefore : ∀ d < n, holds d (UInt8.ofNat d)) (fuel : Nat)
    (h : DepthAlways holds (chainEnv l) (fuel + n + 1) (chainVisit 0) {})
    (error : ActionGraphError) :
    ∃ b, (internalRunTask (chainEnv l) (fuel + n + 1) (chainVisit 0)).run {} = .error error b := by
  have ht := chain_asserts error hn hl hsize hbefore fuel n 0 (Nat.zero_add n)
  obtain ⟨e, b, hb, rfl⟩ := ht.run_error (s := {}) ⟨rfl, rfl, fun _ hn => by cases hn⟩
  exact ⟨b, (h e).symm.trans hb⟩

end

end Moon.Proofs.Builder
