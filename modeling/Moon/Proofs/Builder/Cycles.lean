import Moon.AffectedTracker
import Moon.Proofs.Builder.Outline

/-!
# Cycles

Where the task graph is acyclic, a new node can always be linked: nothing leads to it before its
dependencies are visited, and nothing they do leads to it.
-/

namespace Moon.Proofs.Builder

open Moon.Lib ActionGraphBuilder List

variable {A : Type} {env : BuilderEnv A} {b : ActionGraphBuilder A}

/-- A task names the other one in its `deps`. -/
def Requires (env : BuilderEnv A) (source target : Target) : Prop :=
  ∃ task dep depTask, env.workspace.getTask source = .ok task ∧ dep ∈ task.deps ∧
    depTask ∈ resolved env dep.target ∧ depTask.target = target

def Expands (env : BuilderEnv A) (call visit : TaskVisit) : Prop :=
  Visited env call visit ∧ visit.isPassthrough = false ∧ visit.shouldRunDependencies = true

def CallDependency (env : BuilderEnv A) (call : TaskVisit) (n m : RunTaskNode) : Prop :=
  ∃ visit, Expands env call visit ∧ ∃ dep ∈ dependencyVisits env visit,
    n = visit.node env.fxHash ∧ m = dep.node env.fxHash

def CallRequirement (env : BuilderEnv A) (b : ActionGraphBuilder A) (call : TaskVisit)
    (n m : RunTaskNode) : Prop :=
  HasRequirement b n m ∨ CallDependency env call n m

/-- The edges that there may be during a call. In a serial list, everything that a dependency
requires is run after the dependencies before it. -/
inductive CallEdge (env : BuilderEnv A) (b : ActionGraphBuilder A) (call : TaskVisit) :
    RunTaskNode → RunTaskNode → Prop
  | edge {n m : RunTaskNode} (h : HasEdge b n m) : CallEdge env b call n m
  | dependency {n m : RunTaskNode} (h : CallDependency env call n m) : CallEdge env b call n m
  | serial {visit dep earlier : TaskVisit} {done rest : List TaskVisit} {n : RunTaskNode}
      (h : Expands env call visit) (hserial : visit.task.options.runDepsInParallel = false)
      (hsplit : dependencyVisits env visit = done ++ dep :: rest) (hearlier : earlier ∈ done)
      (hreach : Relation.ReflTransGen (CallRequirement env b call) (dep.node env.fxHash) n) :
      CallEdge env b call n (earlier.node env.fxHash)

section

variable (env : BuilderEnv A) (b : ActionGraphBuilder A) (call : TaskVisit)

/-- The dependencies of a target may be recorded as ignored when a visit of the call takes the
record: they were before the call, or the call also visits the target out of scope. -/
def MayBeIgnored (target : Target) : Prop :=
  (b.ignoredDependencies.lookup target).isSome = true ∨
    ∃ visit, Visited env call visit ∧ visit.task.target = target ∧
      visit.shouldRunDependencies = false

/-- No node whose ignored dependencies the call may expand is on a cycle of the edges that
there may be during the call. -/
def SafeCall : Prop :=
  ∀ visit, Expands env call visit → MayBeIgnored env b call visit.task.target →
    ¬ Relation.TransGen (CallEdge env b call) (visit.node env.fxHash) (visit.node env.fxHash)

end

variable {dep : TaskVisit}

lemma requires_of_dependencyVisits {visit : TaskVisit}
    (hk : Known env visit.task) (hd : dep ∈ dependencyVisits env visit) :
    Requires env visit.task.target dep.task.target := by
  obtain ⟨config, hc, d, hdt, rfl⟩ := mem_dependencyVisits hd
  exact ⟨visit.task, config, d, hk, hc, hdt, rfl⟩

section

variable {s : ActionGraphBuilder A} {call : TaskVisit}

structure CallFrame (env : BuilderEnv A) (start : ActionGraphBuilder A) (call : TaskVisit)
    (b : ActionGraphBuilder A) : Prop where
  edges : ∀ n m, HasEdge b n m → CallEdge env start call n m
  requirements : ∀ n m, HasRequirement b n m → CallRequirement env start call n m
  ignored : ∀ target, (b.ignoredDependencies.lookup target).isSome = true →
    MayBeIgnored env start call target

def Isolated (b : ActionGraphBuilder A) (n : RunTaskNode) : Prop := ∀ a, ¬ HasEdge b a n

/-- Nothing leads to the kept nodes, and the visit does not require them. -/
structure CycleState (env : BuilderEnv A) (start : ActionGraphBuilder A) (call : TaskVisit)
    (kept : RunTaskNode → Prop) (visit : TaskVisit) (b : ActionGraphBuilder A) : Prop where
  visited : Visited env call visit
  known : Known env visit.task
  frame : CallFrame env start call b
  isolated : ∀ n, kept n → Isolated b n
  apart : ∀ n, kept n → visit.state.viaDependency = true ∧
    ¬ Relation.ReflTransGen (Requires env) visit.task.target n.target

lemma CallFrame.of_subset {b' : ActionGraphBuilder A} (h : CallFrame env s call b)
    (hes : ∀ n m, HasEdge b' n m → HasEdge b n m)
    (hr : ∀ n m, HasRequirement b' n m → HasRequirement b n m)
    (hi : ∀ t, (b'.ignoredDependencies.lookup t).isSome → (b.ignoredDependencies.lookup t).isSome) :
    CallFrame env s call b' :=
  ⟨fun n m hn => h.edges n m (hes n m hn), fun n m hn => h.requirements n m (hr n m hn),
    fun t ht => h.ignored t (hi t ht)⟩

variable {k : RunTaskNode → Prop} {visit : TaskVisit} {b' : ActionGraphBuilder A}

lemma CycleState.of_subset (h : CycleState env s call k visit b)
    (hes : ∀ n m, HasEdge b' n m → HasEdge b n m)
    (hr : ∀ n m, HasRequirement b' n m → HasRequirement b n m)
    (hi : ∀ t, (b'.ignoredDependencies.lookup t).isSome → (b.ignoredDependencies.lookup t).isSome) :
    CycleState env s call k visit b' :=
  ⟨h.visited, h.known, h.frame.of_subset hes hr hi,
    fun n hn a ha => h.isolated n hn a (hes a n ha), h.apart⟩

lemma CycleState.takeRecords (h : CycleState env s call k visit b) :
    CycleState env s call k visit (takeRecords visit b) := by
  refine h.of_subset (fun _ _ hn => hn) (fun _ _ hn => hn) (fun t hl => ?_)
  unfold Builder.takeRecords at hl
  by_cases hs : visit.shouldRunDependencies
  · simp only [hs, if_true] at hl
    by_cases ht : t = visit.task.target
    · rw [ht, Finmap.lookup_erase] at hl
      cases hl
    · rwa [Finmap.lookup_erase_ne ht] at hl
  · simp only [hs] at hl
    exact hl

structure Expanding (env : BuilderEnv A) (start : ActionGraphBuilder A) (call : TaskVisit)
    (kept : RunTaskNode → Prop) (visit : TaskVisit) (b : ActionGraphBuilder A) : Prop where
  state : CycleState env start call kept visit b
  runs : visit.isPassthrough = false
  scope : visit.shouldRunDependencies = true
  free : Isolated b (visit.node env.fxHash) ∨
    ¬ Relation.TransGen (CallEdge env start call) (visit.node env.fxHash) (visit.node env.fxHash)

lemma Expanding.expands (h : Expanding env s call k visit b) : Expands env call visit :=
  ⟨h.state.visited, h.runs, h.scope⟩

lemma Expanding.callEdge (h : Expanding env s call k visit b)
    (hd : dep ∈ dependencyVisits env visit) :
    CallDependency env call (visit.node env.fxHash) (dep.node env.fxHash) :=
  ⟨visit, h.expands, dep, hd, rfl, rfl⟩

variable (hacyclic : Acyclic (Requires env))

include hacyclic

lemma Expanding.dependency_ne (h : Expanding env s call k visit b)
    (hd : dep ∈ dependencyVisits env visit) :
    ¬ Relation.ReflTransGen (Requires env) dep.task.target visit.task.target := by
  intro hb
  exact hacyclic _ (Relation.TransGen.head'_iff.mpr
    ⟨_, requires_of_dependencyVisits h.state.known hd, hb⟩)

lemma Expanding.of_edges (h : Expanding env s call k visit b) (hfr : CallFrame env s call b')
    (hes : ∀ n m, HasEdge b' n m → HasEdge b n m ∨
      ∃ dep ∈ dependencyVisits env visit, m = dep.node env.fxHash) :
    Expanding env s call k visit b' := by
  refine ⟨⟨h.state.visited, h.state.known, hfr, fun n hn a ha => ?_, h.state.apart⟩, h.runs,
    h.scope, ?_⟩
  · rcases hes a n ha with ho | ⟨dep, hd, rfl⟩
    · exact h.state.isolated n hn a ho
    · exact (h.state.apart _ hn).2 (.single (requires_of_dependencyVisits h.state.known hd))
  · apply h.free.imp _ id
    intro hf a ha
    rcases hes a _ ha with ho | ⟨dep, hd, heq⟩
    · exact hf a ho
    · have ht : visit.task.target = dep.task.target := congrArg RunTaskNode.target heq
      exact h.dependency_ne hacyclic hd (ht ▸ .refl)

lemma Expanding.no_cycle (h : Expanding env s call k visit b)
    (hd : dep ∈ dependencyVisits env visit) :
    ¬ Relation.ReflTransGen (HasEdge b) (dep.node env.fxHash) (visit.node env.fxHash) := by
  intro hr
  rcases h.free with hf | hf
  · rcases hr.cases_tail with heq | ⟨last, -, hl⟩
    · have ht : visit.task.target = dep.task.target := congrArg RunTaskNode.target heq
      exact h.dependency_ne hacyclic hd (ht ▸ .refl)
    · exact hf last hl
  · apply hf
    apply Relation.TransGen.head' (.dependency (h.callEdge hd))
    exact Relation.ReflTransGen.mono h.state.frame.edges _ _ hr

omit hacyclic in
lemma CycleState.addTask (h : CycleState env s call k visit b) (hw' : WellFormed env b')
    (hf : SetupFrame env (Builder.takeRecords visit b) b') :
    CycleState env s call k visit (Builder.addTask (visit.node env.fxHash) b') := by
  apply h.takeRecords.of_subset
  · intro n m hn
    rwa [hasEdge_addTask, hf.hasEdge_iff] at hn
  · intro n m hn
    rwa [hw'.hasRequirement_addTask, hf.hasRequirement_iff] at hn
  · intro t ht
    change (b'.ignoredDependencies.lookup t).isSome at ht
    rwa [hf.rest] at ht

omit hacyclic in
lemma CycleState.ignoreDependencies (h : CycleState env s call k visit b)
    (hs : visit.shouldRunDependencies = false)
    (hl : Links (ignoreDependencies visit b) (visit.node env.fxHash) (fun _ => False) b') :
    CycleState env s call k visit b' := by
  have hed (n m : RunTaskNode) (hnm : HasEdge b' n m) : HasEdge b n m := by
    rw [hl.hasEdge, hasEdge_congr (ignoreDependencies_graph visit b)] at hnm
    simpa using hnm
  refine ⟨h.visited, h.known, ⟨?_, ?_, ?_⟩, fun n hn a ha => h.isolated n hn a (hed a n ha),
    h.apart⟩
  · intro n m hnm
    exact h.frame.edges n m (hed n m hnm)
  · intro n m hnm
    apply h.frame.requirements n m
    rwa [hl.hasRequirement_ignoring] at hnm
  · intro t ht
    rw [hl.lookup_ignoring] at ht
    split_ifs at ht with htg
    · rw [htg.1]
      exact .inr ⟨visit, h.visited, rfl, hs⟩
    · exact h.frame.ignored t ht

variable (h : Expanding env s call k visit b)

include h

lemma Expanding.visitDependency (hd : dep ∈ dependencyVisits env visit) :
    ∃ k', CycleState env s call k' dep b ∧ ∀ b', CallFrame env s call b' →
      (∀ n, k' n → Isolated b' n) → Expanding env s call k visit b' := by
  have hvs : Visited env call dep := .dependency h.state.visited h.runs h.scope hd
  have hk := known_of_dependency hd
  have hv : dep.state.viaDependency := by
    obtain ⟨config, -, d, -, rfl⟩ := mem_dependencyVisits hd
    rfl
  have ha (n : RunTaskNode) (hn : k n) :
      ¬ Relation.ReflTransGen (Requires env) dep.task.target n.target := by
    intro hr
    exact (h.state.apart n hn).2 (.head (requires_of_dependencyVisits h.state.known hd) hr)
  rcases h.free with hf | hf
  · refine ⟨fun n => k n ∨ n = visit.node env.fxHash, ⟨hvs, hk, h.state.frame, ?_, ?_⟩, ?_⟩
    · rintro n (hn | rfl)
      · exact h.state.isolated n hn
      · exact hf
    · rintro n (hn | rfl)
      · exact ⟨hv, ha n hn⟩
      · exact ⟨hv, h.dependency_ne hacyclic hd⟩
    · intro b' hfr hi
      exact ⟨⟨h.state.visited, h.state.known, hfr, fun n hn => hi n (.inl hn),
        h.state.apart⟩, h.runs, h.scope, .inl (hi _ (.inr rfl))⟩
  · refine ⟨k, ⟨hvs, hk, h.state.frame, h.state.isolated, fun n hn => ⟨hv, ha n hn⟩⟩, ?_⟩
    intro b' hfr hi
    exact ⟨⟨h.state.visited, h.state.known, hfr, hi, h.state.apart⟩, h.runs, h.scope, .inr hf⟩

lemma Expanding.order {d rest : List TaskVisit}
    {e : TaskVisit} (hs : dependencyVisits env visit = d ++ dep :: rest)
    (hsr : visit.task.options.runDepsInParallel = false) (her : e ∈ d)
    (ho : Ordered b (dep.node env.fxHash) (e.node env.fxHash) b') :
    Expanding env s call k visit b' := by
  have hm : e ∈ dependencyVisits env visit := by
    rw [hs]
    exact mem_append_left _ her
  apply h.of_edges hacyclic
  · refine ⟨fun n m hn => ?_, fun n m hn => ?_, fun t ht => ?_⟩
    · rcases ho.hasEdge n m hn with hol | ⟨rfl, hr⟩
      · exact h.state.frame.edges n m hol
      · exact .serial h.expands hsr hs her
          (Relation.ReflTransGen.mono h.state.frame.requirements _ _ hr)
    · exact h.state.frame.requirements n m ((ho.hasRequirement n m).mp hn)
    · rw [ho.rest] at ht
      exact h.state.frame.ignored t ht
  · intro n m hn
    exact (ho.hasEdge n m hn).imp id (fun hnw => ⟨e, hm, hnw.1⟩)

lemma Expanding.link {ts : RunTaskNode → Prop}
    (htg : ∀ m, ts m → ∃ dep ∈ dependencyVisits env visit, m = dep.node env.fxHash)
    (hl : Links b (visit.node env.fxHash) ts b') : CycleState env s call k visit b' := by
  apply Expanding.state
  apply h.of_edges hacyclic
  · refine ⟨fun n m hn => ?_, fun n m hn => ?_, fun t ht => ?_⟩
    · rcases (hl.hasEdge n m).mp hn with ho | ⟨rfl, hm⟩
      · exact h.state.frame.edges n m ho
      · obtain ⟨dep, hd, rfl⟩ := htg m hm
        exact .dependency (h.callEdge hd)
    · rcases (hl.hasRequirement n m).mp hn with ho | ⟨rfl, hm⟩
      · exact h.state.frame.requirements n m ho
      · obtain ⟨dep, hd, rfl⟩ := htg m hm
        exact .inr (h.callEdge hd)
    · rw [hl.rest] at ht
      exact h.state.frame.ignored t ht
  · intro n m hn
    exact ((hl.hasEdge n m).mp hn).imp id (fun hnw => htg m hnw.2)

end

/-- The ghost argument are nodes that no edge is to lead to, as their dependencies are being
visited. -/
def cycleOutline (env : BuilderEnv A) (start : ActionGraphBuilder A) (call : TaskVisit) :
    Outline A (RunTaskNode → Prop) where
  pre := CycleState env start call
  ready := CycleState env start call
  expanding k visit step _ b :=
    Expanding env start call k visit b ∧ (step = .expand → visit.shouldRunDependents = true)
  linked k visit step b :=
    CycleState env start call k visit b ∧ (step = .expand → visit.shouldRunDependents = true)
  reporting k visit _ _ b :=
    CycleState env start call k visit b ∧ visit.shouldRunDependents = true
  post k _ _ b := CallFrame env start call b ∧ ∀ n, k n → Isolated b n
  fact _ _ _ := True
  error e := e.isWouldCycle = false

theorem cycleOutline_valid {s : ActionGraphBuilder A}
    {call : TaskVisit} (hacyclic : Acyclic (Requires env))
    (htl : Acyclic (ToolchainRequires env)) (hsf : SafeCall env s call) :
    (cycleOutline env s call).Valid env where
  failed e he := he htl
  checked k x b answer b' _ hp _ hrs := by
    have hst : CycleState env s call k x b' := by
      rw [hrs]
      exact hp.of_subset (fun _ _ h => h) (fun _ _ h => h) (fun _ h => h)
    cases answer with
    | true => exact hst
    | false => exact ⟨hst.frame, hst.isolated⟩
  skipped k x b hr _ := ⟨hr.frame, hr.isolated⟩
  passed k x b hr _ _ := by
    have hst : CycleState env s call k x (passThrough x b) :=
      CycleState.of_subset hr (fun _ _ h => h) (fun _ _ h => h) (fun _ h => h)
    cases hsc : x.shouldRunDependents with
    | true => exact ⟨hst, hsc⟩
    | false => exact ⟨hst.frame, hst.isolated⟩
  revisited k x b _ hr _ hps _ := by
    have hst := CycleState.takeRecords hr
    have hstp := revisitStep_expand x b
    cases hh : hadIgnoredDependencies x b with
    | false => exact ⟨hst, hstp⟩
    | true =>
      obtain ⟨hsc, hre⟩ := Bool.and_eq_true_iff.mp hh
      refine ⟨⟨hst, hps, hsc, .inr ?_⟩, hstp⟩
      exact hsf x ⟨hr.visited, hps, hsc⟩ (hr.frame.ignored _ hre)
  inserted k x b b' _ hw' hr _ hps hnw hf := by
    have hstp := insertStep_expand x
    have hst := CycleState.addTask hr hw' hf
    cases hsc : x.shouldRunDependencies with
    | true =>
      refine ⟨⟨hst, hps, hsc, .inl (fun a hed => ?_)⟩, hstp⟩
      obtain ⟨i, j, -, hj, -⟩ := (hasEdge_addTask _ _ a _).mp hed
      have hnd := hj.hasNode
      rw [hf.hasNode_iff] at hnd
      exact hnw hnd
    | false =>
      intro b'' hl
      exact ⟨hst.ignoreDependencies hsc hl, hstp⟩
  dependency k x step done dep rest hs b _ hb := by
    have hd : dep ∈ dependencyVisits env x := by
      rw [hs]
      simp
    obtain ⟨kept', hp, hpst⟩ := hb.1.visitDependency hacyclic hd
    refine ⟨kept', hp, ?_⟩
    intro r b' _ _ _ hen
    exact ⟨⟨hpst b' hen.1 hen.2, hb.2⟩, trivial⟩
  serial k x step done dep rest hs hsr earlier her b b' _ hb ho :=
    ⟨hb.1.order hacyclic hs hsr her ho, hb.2⟩
  link k x step b b' ts _ hb _ ht _ _ hl := by
    refine ⟨hb.1.link hacyclic (fun m hm => ?_) hl, hb.2⟩
    obtain ⟨dep, hd, heq, -⟩ := ht m hm
    exact ⟨dep, hd, heq⟩
  cycle k x step b _ hb dep hd hrc e := absurd hrc (hb.1.no_cycle hacyclic hd)
  reported k x step index b _ hb _ := by
    cases step with
    | expand => exact ⟨hb.1, hb.2 rfl⟩
    | ignore =>
      exact ⟨hb.1.frame.of_subset (fun _ _ h => h) (fun _ _ h => h) (fun _ h => h), hb.1.isolated⟩
    | keep => exact ⟨hb.1.frame, hb.1.isolated⟩
  dependent k x r done dep rest hs b _ hb := by
    have hd : dep ∈ dependentVisits env x := by
      rw [hs]
      simp
    have hv := Visited.dependent hb.1.visited hb.2 hd
    have hno (n : RunTaskNode) : ¬ k n := by
      intro hn
      have hsc := hb.2
      simp [TaskVisit.shouldRunDependents, (hb.1.apart n hn).1] at hsc
    have hk := known_of_dependent hd
    refine ⟨fun _ => False, ⟨hv, hk, hb.1.frame, by simp, by simp⟩, ?_⟩
    intro r' b' _ _ hen
    exact ⟨⟨hb.1.visited, hb.1.known, hen.1, fun n hn => absurd hn (hno n), hb.1.apart⟩, hb.2⟩
  finished k x r b _ hb := ⟨hb.1.frame, hb.1.isolated⟩
  mono _ _ _ _ _ _ := trivial

structure RunTaskCall where
  task : Task
  reqs : RunRequirements := {}

def RunTaskCall.visit (call : RunTaskCall) : TaskVisit := { task := call.task, reqs := call.reqs }

def runCalls (env : BuilderEnv A) (fuel : Nat) : List RunTaskCall → BuildM A Unit
  | [] => return ()
  | call :: cs => do
    let _ ← runTask env fuel call.task call.reqs
    runCalls env fuel cs

/-- Each call is safe in the state that those before it leave. -/
def SafeCalls (env : BuilderEnv A) (fuel : Nat) : List RunTaskCall → ActionGraphBuilder A → Prop
  | [], _ => True
  | call :: cs, b => SafeCall env b call.visit ∧
      ∀ r b', (runTask env fuel call.task call.reqs).run b = .ok r b' → SafeCalls env fuel cs b'

lemma cycleState_start {call : TaskVisit} (hk : Known env call.task) :
    CycleState env b call (fun _ => False) call b :=
  ⟨.call, hk, ⟨fun _ _ h => .edge h, fun _ _ h => .inl h, fun _ h => .inl h⟩, by simp, by simp⟩

lemma runCalls_spec {n : Nat} (hacyclic : Acyclic (Requires env))
    (ht : Acyclic (ToolchainRequires env)) {cs : List RunTaskCall} (hw : WellFormed env b)
    (hk : ∀ call ∈ cs, Known env call.task) (hs : SafeCalls env n cs b) :
    Triple (fun s => s = b) (runCalls env n cs) (fun _ _ => True)
      (fun e _ => e.isWouldCycle = false) := by
  induction cs generalizing b with
  | nil => exact Triple.pure (fun _ _ => trivial)
  | cons call cs ih =>
    obtain ⟨hc, hrs⟩ := hs
    have hv := cycleOutline_valid hacyclic ht hc
    have hsp := hv.runTask n hw (cycleState_start (hk call mem_cons_self))
    unfold runCalls
    apply Triple.bind_at hsp.of_run
    rintro r b' ⟨hr, b₁, hen, hb'⟩
    have hw' : WellFormed env b' := by
      rw [hb']
      exact hen.wellFormed.congr rfl rfl rfl
    exact ih hw' (fun o ho => hk o (mem_cons_of_mem _ ho)) (hrs r b' hr)

/-- On an acyclic task graph, no sequence of safe calls on a new builder fails with a cycle. -/
theorem run_task_calls_never_wouldCycle {env : BuilderEnv A} (fuel : Nat)
    (hacyclic : Acyclic (Requires env)) (htoolchains : Acyclic (ToolchainRequires env))
    (affected : Option A) (calls : List RunTaskCall) (hknown : ∀ call ∈ calls, Known env call.task)
    (hsafe : SafeCalls env fuel calls { affected := affected })
    (so target : String) (b' : ActionGraphBuilder A) :
    (runCalls env fuel calls).run { affected := affected } ≠ .error (.wouldCycle so target) b' := by
  intro hr
  have hs := runCalls_spec hacyclic htoolchains (wellFormed_new env affected) hknown hsafe
    _ rfl
  rw [hr] at hs
  cases hs

lemma acyclic_requires_of_rank (r : Target → Nat) (h : ∀ ta ∈ env.workspace.tasks, ∀ dep ∈ ta.deps,
      ∀ d ∈ resolved env dep.target, r d.target < r ta.target) : Acyclic (Requires env) := by
  apply acyclic_of_rank r
  rintro s t ⟨ta, dep, d, hg, hd, hdt, rfl⟩
  obtain ⟨hm, rfl⟩ := getTask_eq_ok hg
  exact h ta hm dep hd d hdt

/-- A task with direct dependencies and no dependents can always be run, unless its own
dependencies were ignored before. -/
lemma safeCall_of_direct (hacyclic : Acyclic (Requires env))
    {call : RunTaskCall} (hk : Known env call.task)
    (hdpn : call.reqs.dependencies = .direct) (hdpnd : call.reqs.dependents = .none)
    (hrc : b.ignoredDependencies.lookup call.task.target = none) : SafeCall env b call.visit := by
  -- below the call, nothing is in scope
  have hvs (visit : TaskVisit) (h : Visited env call.visit visit) :
      visit.reqs.dependencies = .direct ∧ visit.reqs.dependents = .none ∧ (visit = call.visit ∨
          (visit.state.depth = 1 ∧ Requires env call.task.target visit.task.target)) := by
    induction h with
    | call => exact ⟨hdpn, hdpnd, .inl rfl⟩
    | @dependency visit dep _ _ hs hde ih =>
      obtain ⟨hdp, hn, hv⟩ := ih
      have hc : visit = call.visit := by
        apply hv.resolve_right
        rintro ⟨hd, -⟩
        simp [TaskVisit.shouldRunDependencies, hdp, UpstreamScope.isInScope, hd] at hs
      subst hc
      have hr := requires_of_dependencyVisits hk hde
      obtain ⟨config, -, d, -, rfl⟩ := mem_dependencyVisits hde
      exact ⟨hdp, hn, .inr ⟨rfl, hr⟩⟩
    | dependent _ hs _ ih =>
      simp [TaskVisit.shouldRunDependents, ih.2.1, DownstreamScope.isInScope] at hs
  intro visit hex hi
  obtain ⟨hdp, -, hv⟩ := hvs visit hex.1
  have hc : visit = call.visit := by
    apply hv.resolve_right
    rintro ⟨hd, -⟩
    have hs := hex.2.2
    simp [TaskVisit.shouldRunDependencies, hdp, UpstreamScope.isInScope, hd] at hs
  subst hc
  rcases hi with hol | ⟨o, ho, ht, hs⟩
  · rw [show b.ignoredDependencies.lookup call.visit.task.target = none from hrc] at hol
    cases hol
  · obtain ⟨-, -, rfl | ⟨-, hr⟩⟩ := hvs o ho
    · rw [hex.2.2] at hs
      cases hs
    · rw [ht] at hr
      exact absurd (.single hr) (hacyclic _)

def codegenTask : Task := { target := Target.new "app" "codegen" }

def buildTask : Task :=
  { target := Target.new "app" "build", deps := [{ target := codegenTask.target }] }

def checkTask : Task :=
  { target := Target.new "app" "check"
    deps := [{ target := buildTask.target }, { target := codegenTask.target }]
    options := { runDepsInParallel := false } }

def checkWorkspace : WorkspaceGraph :=
  { projects := [{ id := "app" }], tasks := [codegenTask, buildTask, checkTask] }

def checkEnv : BuilderEnv AffectedMarks :=
  { workspace := checkWorkspace, tracker := affectedTracker { workspace := checkWorkspace } }

lemma acyclic_checkEnv : Acyclic (Requires checkEnv) := by
  apply acyclic_requires_of_rank (fun t =>
    if t = checkTask.target then 2 else if t = buildTask.target then 1 else 0)
  decide

lemma acyclic_toolchains_checkEnv : Acyclic (ToolchainRequires checkEnv) := by
  apply acyclic_of_rank (fun _ => 0)
  rintro id requireId ⟨plugin, p, o, hp, ho, hs, -, -⟩
  cases hp
  cases ho
  cases hs

/-- When `check` is run with its direct dependencies, `codegen` is put after `build`, whose own
dependencies are ignored. The call that expands them then fails. -/
theorem check_then_build_wouldCycle :
    Acyclic (Requires checkEnv) ∧ Acyclic (ToolchainRequires checkEnv) ∧
      (∀ task ∈ [checkTask, buildTask], Known checkEnv task) ∧
      ∃ b', (runCalls checkEnv 10 [⟨checkTask, { dependencies := .direct }⟩,
        ⟨buildTask, { dependencies := .direct }⟩]).run {} =
          .error (.wouldCycle "RunTask(app:build)" "RunTask(app:codegen)") b' := by
  refine ⟨acyclic_checkEnv, acyclic_toolchains_checkEnv, by unfold Known; decide, ?_⟩
  have hr : (match (runCalls checkEnv 10 [⟨checkTask, { dependencies := .direct }⟩,
      ⟨buildTask, { dependencies := .direct }⟩]).run {} with
      | .ok _ _ => none
      | .error e _ => some e) = some (.wouldCycle "RunTask(app:build)" "RunTask(app:codegen)") := by
    decide +kernel
  cases hrs : (runCalls checkEnv 10 [⟨checkTask, { dependencies := .direct }⟩,
      ⟨buildTask, { dependencies := .direct }⟩]).run {} with
  | ok _ b' => simp [hrs] at hr
  | error e b' =>
    simp only [hrs, Option.some.injEq] at hr
    exact ⟨b', by rw [hr]⟩

lemma lookup_after_build (r : Option Nat) (b' : ActionGraphBuilder AffectedMarks)
    (h : (runTask checkEnv 10 buildTask { dependencies := .direct }).run {} = .ok r b') :
    b'.ignoredDependencies.lookup checkTask.target = none := by
  have hl : (match (runTask checkEnv 10 buildTask { dependencies := .direct }).run {} with
      | .ok _ b' => b'.ignoredDependencies.lookup checkTask.target
      | .error _ _ => none) = none := by
    decide +kernel
  rwa [h] at hl

/-- In the other order, the same calls are safe. -/
theorem build_then_check_never_wouldCycle :
    SafeCalls checkEnv 10 [⟨buildTask, { dependencies := .direct }⟩,
      ⟨checkTask, { dependencies := .direct }⟩] {} ∧
    ∀ so target b', (runCalls checkEnv 10 [⟨buildTask, { dependencies := .direct }⟩,
      ⟨checkTask, { dependencies := .direct }⟩]).run {} ≠ .error (.wouldCycle so target) b' := by
  have hb : Known checkEnv buildTask := by
    unfold Known
    decide
  have hc : Known checkEnv checkTask := by
    unfold Known
    decide
  have hs : SafeCalls checkEnv 10 [⟨buildTask, { dependencies := .direct }⟩,
      ⟨checkTask, { dependencies := .direct }⟩] {} := by
    refine ⟨safeCall_of_direct acyclic_checkEnv hb rfl rfl rfl, fun r b' hr => ?_⟩
    exact ⟨safeCall_of_direct acyclic_checkEnv hc rfl rfl (lookup_after_build r b' hr),
      fun _ _ _ => trivial⟩
  refine ⟨hs, run_task_calls_never_wouldCycle 10 acyclic_checkEnv
    acyclic_toolchains_checkEnv none _ ?_ hs⟩
  intro call hcl
  rcases mem_pair.mp hcl with rfl | rfl
  · exact hb
  · exact hc

end Moon.Proofs.Builder
