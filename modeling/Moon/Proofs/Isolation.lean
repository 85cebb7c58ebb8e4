import Moon.InternalRun

/-!
# Actions that run at once

The loop spawns an interactive action first and then waits for all handles. Other jobs wait for a
permit.
-/

namespace Moon.Proofs

open Moon.Lib List Function Option Finset InternalRun

variable {e : PipelineRunEvent}

/-- What a step of a run can do, with the guard that lets it through. -/
inductive Stepped (g : ActionGraph) (b : Bool) (run : PipelineRun) :
    PipelineRunEvent → PipelineRun → Prop
  | loop {after : PipelineRun} (hs : run.stepLoop g = some after) : Stepped g b run .loop after
  | join {i : Nat} (hh : i ∈ run.handles)
      (hj : run.jobs i = some .finished ∨ run.jobs i = some .killed) :
      Stepped g b run (.join i) { run with
        handles := run.handles.erase i
        loop := if run.loop = .joining then .top else run.loop }
  | begin {i : Nat} {after : PipelineRun} (hj : run.jobs i = some .queued)
      (hs : run.beginJob g i = some after) : Stepped g b run (.begin i) after
  | ran {i : Nat} {env : ActionRunEnv} {after : PipelineRun} (hj : run.jobs i = some .running)
      (hs : run.endRun g i env = some after) : Stepped g b run (.ran i env) after
  | settle {i : Nat} {a : Action} (hj : run.jobs i = some (.ran a)) :
      Stepped g b run (.settle i) (run.setJob i (.sending (run.settle a)))
  | signal {i : Nat} {a : Action} (hj : run.jobs i = some (.sending a)) :
      Stepped g b run (.signal i) { run.setJob i (.signalled a) with
        abortToken := run.abortToken || shouldAbortPipeline b a }
  | removeRunning {i : Nat} {a : Action} {d : JobDispatcher} (hj : run.jobs i = some (.signalled a))
      (hd : run.dispatcher.step g (.removeRunning i) = some d) :
      Stepped g b run (.removeRunning i) { run.setJob i (.removed a) with dispatcher := d }
  | insertCompleted {i : Nat} {a : Action} {d : JobDispatcher} (hj : run.jobs i = some (.removed a))
      (hd : run.dispatcher.step g (.insertCompleted i) = some d) :
      Stepped g b run (.insertCompleted i) { run.setJob i (.completed a) with dispatcher := d }
  | send {i : Nat} {a : Action} (hj : run.jobs i = some (.completed a)) : Stepped g b run (.send i)
        { run.setJob i .finished with results := run.results ++ [a] }
  | receive {a : Action} {rest : List Action} (hr : run.results = a :: rest) :
      Stepped g b run .receive { run with
        results := rest
        abortToken := run.abortToken || shouldAbortPipeline b a }
  | cancel : Stepped g b run .cancel { run with cancelToken := true }
  | shutdown (ht : run.isAbortedOrCancelled = true) :
      Stepped g b run .shutdown { run with loop := .returned }
  | kill {i : Nat} {old : JobPhase} (ht : run.isAbortedOrCancelled = true)
      (hj : run.jobs i = some old) : Stepped g b run (.kill i) (run.setJob i .killed)

lemma stepped_of_step {g : ActionGraph} {b : Bool} {run r' : PipelineRun}
    (h : run.step g b e = some r') : Stepped g b run e r' := by
  cases e with
  | loop => exact .loop h
  | join i =>
    simp only [PipelineRun.step] at h
    split at h
    · rename_i hg
      cases h
      exact .join hg.1 hg.2
    · cases h
  | begin i =>
    simp only [PipelineRun.step] at h
    split_ifs at h with hj
    exact .begin hj h
  | ran i env =>
    simp only [PipelineRun.step] at h
    split_ifs at h with hj
    exact .ran hj h
  | settle i | signal i | send i | receive =>
    simp only [PipelineRun.step] at h
    split at h
    · cases h
      constructor
      assumption
    · cases h
  | removeRunning i | insertCompleted i =>
    simp only [PipelineRun.step] at h
    split at h
    · obtain ⟨d, hd, h⟩ := bind_eq_some_iff.mp h
      cases h
      constructor <;> assumption
    · cases h
  | cancel =>
    cases h
    exact .cancel
  | shutdown =>
    simp only [PipelineRun.step] at h
    split_ifs at h with ht
    cases h
    exact .shutdown ht
  | kill i =>
    simp only [PipelineRun.step] at h
    split_ifs at h with hg
    cases h
    obtain ⟨old, hj⟩ := isSome_iff_exists.mp hg.2.2
    exact .kill hg.1 hj

section

variable {g : ActionGraph} {bail : Bool} {n : Nat} {p p' : InternalRun}

/-- A step of the collecting pipeline is a step of the loop or of a job, apart from the
results that are on their way. -/
lemma run_of_step (h : p.step g bail n e = some p') :
    (∃ run results, p.run.step g bail e = some run ∧
      p'.run = { run with results := results }) ∨ p'.run = p.run := by
  cases e with
  | join i =>
    simp only [InternalRun.step] at h
    split_ifs at h
    obtain ⟨run, hr, h⟩ := bind_eq_some_iff.mp h
    cases h
    exact .inl ⟨run, run.results, hr, rfl⟩
  | begin i =>
    simp only [InternalRun.step] at h
    split at h
    · cases h
    · obtain ⟨run, hr, h⟩ := bind_eq_some_iff.mp h
      cases h
      exact .inl ⟨run, run.results, hr, rfl⟩
  | send i =>
    obtain ⟨run, hr, h⟩ := bind_eq_some_iff.mp h
    cases h
    dsimp only
    split_ifs
    · exact .inl ⟨run, run.results, hr, rfl⟩
    · exact .inl ⟨run, p.run.results, hr, rfl⟩
  | receive =>
    simp only [InternalRun.step, receive] at h
    split at h
    · cases h
    · cases h
    · cases h
      exact .inr rfl
    · obtain ⟨run, hr, h⟩ := bind_eq_some_iff.mp h
      cases h
      refine .inl ⟨run, run.results, hr, ?_⟩
      unfold collect
      dsimp only
      split_ifs <;> rfl
  | kill i | loop | ran i env | settle i | signal i | removeRunning i
  | insertCompleted i | shutdown =>
    obtain ⟨run, hr, h⟩ := bind_eq_some_iff.mp h
    cases h
    exact .inl ⟨run, run.results, hr, rfl⟩
  | cancel =>
    cases h
    exact .inl ⟨_, p.run.results, rfl, rfl⟩

end

section

variable (g : ActionGraph)

def IsInteractive (index : Nat) : Prop :=
  ∃ node, g.nodes[index]? = some node ∧ node.isInteractive = true

def MayRun : Option JobPhase → Prop
  | some .queued | some .running => True
  | _ => False

/-- The loop waits for an interactive job, which runs alone. -/
structure Isolation (run : PipelineRun) : Prop where
  handled : ∀ index, MayRun (run.jobs index) → index ∈ run.handles
  /-- The loop waits for an interactive job, and nothing else does or will run by then. -/
  alone : ∀ index, IsInteractive g index → MayRun (run.jobs index) →
    (run.loop = .returned ∨ ∃ interactive, run.loop = .exhausting interactive) ∧
      ∀ other, MayRun (run.jobs other) → other = index

variable {g} {bail : Bool} {run r' : PipelineRun}

lemma Isolation.jobs (hiso : Isolation g run) (hh : r'.handles = run.handles)
    (hl : r'.loop = run.loop ∨ r'.loop = .returned)
    (hj : ∀ i, MayRun (r'.jobs i) → MayRun (run.jobs i)) : Isolation g r' where
  handled i hr := hh ▸ hiso.handled i (hj i hr)
  alone i hi hr := by
    obtain ⟨hw, ha⟩ := hiso.alone i hi (hj i hr)
    refine ⟨?_, fun o ho => ha o (hj o ho)⟩
    rcases hl with hs | hrt
    · rw [hs]
      exact hw
    · exact .inl hrt

variable {i : Nat}

lemma Isolation.not_mayRun (hiso : Isolation g run) (hr : run.loop ≠ .returned)
    (hex : ∀ interactive, run.loop ≠ .exhausting interactive)
    (hi : IsInteractive g i) : ¬ MayRun (run.jobs i) := by
  intro hrn
  rcases (hiso.alone i hi hrn).1 with heq | ⟨interactive, heq⟩
  · exact hr heq
  · exact hex interactive heq

lemma Isolation.setLoop (hiso : Isolation g run) (hj : r'.jobs = run.jobs)
    (hh : r'.handles = run.handles) (hn : ∀ i, IsInteractive g i → ¬ MayRun (run.jobs i)) :
    Isolation g r' where
  handled i hr := by
    rw [hj] at hr
    rw [hh]
    exact hiso.handled i hr
  alone i hi hr := by
    rw [hj] at hr
    exact absurd hr (hn i hi)

lemma markCompleted_same (h : run.markCompleted g i = some r') :
    r'.jobs = run.jobs ∧ r'.handles = run.handles := by
  obtain ⟨removed, _, h⟩ := bind_eq_some_iff.mp h
  obtain ⟨inserted, _, h⟩ := bind_eq_some_iff.mp h
  cases h
  exact ⟨rfl, rfl⟩

/-- An interactive action is started only when nothing else can run. -/
def Drained (graph : ActionGraph) (run : PipelineRun) : PipelineRunEvent → Prop
  | .loop =>
    (∀ index node, run.loop = .dispatching index → graph.nodes[index]? = some node →
      node.isInteractive = true → node.isPersistent = false →
      ∀ other, ¬ MayRun (run.jobs other)) ∧
    (run.loop = .exhausting false → ∀ index ∈ run.persistentIndices, IsInteractive graph index →
      ∀ other ∈ run.persistentIndices, other = index)
  | _ => True

section

variable (hiso : Isolation g run)
include hiso

lemma Isolation.spawn {n : ActionNode} (hnd : g.nodes[i]? = some n)
    (hn : ∀ o, IsInteractive g o → ¬ MayRun (run.jobs o))
    (hd : n.isInteractive → ∀ o, ¬ MayRun (run.jobs o)) :
    Isolation g { run.setJob i .queued with
      handles := insert i run.handles
      loop := if n.isInteractive then .exhausting true else .top } := by
  have hj : ∀ o, MayRun (update run.jobs i (some .queued) o) →
      o = i ∨ MayRun (run.jobs o) := by
    intro o ho
    by_cases heq : o = i
    · exact .inl heq
    · rw [update_of_ne heq] at ho
      exact .inr ho
  constructor
  · intro o ho
    rcases hj o ho with heq | hol
    · rw [heq]
      exact mem_insert_self _ _
    · exact mem_insert_of_mem (hiso.handled o hol)
  · intro o hi ho
    have heq : o = i := (hj o ho).resolve_right (hn o hi)
    subst heq
    obtain ⟨f, hf, hy⟩ := hi
    cases hnd.symm.trans hf
    refine ⟨.inr ⟨true, if_pos hy⟩, fun t ht => ?_⟩
    exact (hj t ht).resolve_right (hd hy t)

lemma Isolation.spawnPersistent (hhdl : run.handles = ∅)
    (hd : ∀ i ∈ run.persistentIndices, IsInteractive g i → ∀ o ∈ run.persistentIndices, o = i) :
    Isolation g run.spawnPersistent := by
  have hj : ∀ i, MayRun (run.spawnPersistent.jobs i) →
      i ∈ run.persistentIndices := by
    intro i hr
    by_contra hm
    have hol : run.spawnPersistent.jobs i = run.jobs i := if_neg hm
    rw [hol] at hr
    have hh := hiso.handled i hr
    rw [hhdl] at hh
    exact notMem_empty i hh
  constructor
  · intro i hr
    exact mem_union_right _ (mem_toFinset.mpr (hj i hr))
  · intro i hi hr
    exact ⟨.inl rfl, fun o ho =>
      hd i (hj i hr) hi o (hj o ho)⟩

lemma Isolation.dispatchNode (hl : run.loop = .dispatching i)
    (hd : Drained g run .loop) (h : run.dispatchNode g i = some r') : Isolation g r' := by
  have hn : ∀ o, IsInteractive g o → ¬ MayRun (run.jobs o) := by
    intro o hi
    exact hiso.not_mayRun (by simp [hl]) (by simp [hl]) hi
  unfold PipelineRun.dispatchNode at h
  cases hnd : g.nodes[i]? with
  | none =>
    rw [hnd] at h
    obtain ⟨marked, hm, h⟩ := bind_eq_some_iff.mp h
    cases h
    obtain ⟨hj, hh⟩ := markCompleted_same hm
    exact hiso.setLoop hj hh hn
  | some n =>
    rw [hnd] at h
    dsimp only at h
    by_cases hp : n.isPersistent
    · rw [if_pos hp] at h
      obtain ⟨marked, hm, h⟩ := bind_eq_some_iff.mp h
      cases h
      obtain ⟨hj, hh⟩ := markCompleted_same hm
      exact hiso.setLoop hj hh hn
    · rw [if_neg hp] at h
      cases h
      exact hiso.spawn hnd hn (fun hy =>
        hd.1 i n hl hnd hy (by simpa using hp))

lemma Isolation.stepLoop (hd : Drained g run .loop)
    (h : run.stepLoop g = some r') : Isolation g r' := by
  unfold PipelineRun.stepLoop at h
  split at h
  · rename_i hl
    have hn : ∀ i, IsInteractive g i → ¬ MayRun (run.jobs i) :=
      fun i => hiso.not_mayRun (by simp [hl]) (by simp [hl])
    split_ifs at h <;> cases h <;> exact hiso.setLoop rfl rfl hn
  · rename_i hl
    cases h
    exact hiso.setLoop rfl rfl (fun i => hiso.not_mayRun (by simp [hl]) (by simp [hl]))
  · rename_i i hl
    exact hiso.dispatchNode hl hd h
  · rename_i hl
    split_ifs at h
    cases h
    exact hiso.setLoop rfl rfl (fun i => hiso.not_mayRun (by simp [hl]) (by simp [hl]))
  · rename_i interactive hl
    split_ifs at h with hh habr hi
    · cases h
      exact hiso.jobs rfl (.inr rfl) (fun _ hr => hr)
    · cases h
      -- all handles are done, so no job may run
      refine hiso.setLoop rfl rfl (fun i _ hr => ?_)
      have hhd := hiso.handled i hr
      rw [not_not.mp hh] at hhd
      exact notMem_empty i hhd
    · cases h
      rw [Bool.not_eq_true] at hi
      exact hiso.spawnPersistent (not_not.mp hh) (hd.2 (hi ▸ hl))
  · cases h

lemma Isolation.moveJob {old ph : JobPhase} (hj : run.jobs i = some old)
    (hp : MayRun (some ph) → MayRun (some old)) (hjb : r'.jobs = (run.setJob i ph).jobs)
    (hh : r'.handles = run.handles) (hl : r'.loop = run.loop) : Isolation g r' := by
  refine hiso.jobs hh (.inl hl) (fun o ho => ?_)
  rw [hjb] at ho
  change MayRun (update run.jobs i (some ph) o) at ho
  by_cases heq : o = i
  · subst heq
    rw [update_self] at ho
    rw [hj]
    exact hp ho
  · rwa [update_of_ne heq] at ho

lemma Isolation.join (hd : run.jobs i = some .finished ∨ run.jobs i = some .killed) :
    Isolation g { run with
      handles := run.handles.erase i
      loop := if run.loop = .joining then .top else run.loop } := by
  have hs : ¬ MayRun (run.jobs i) := by
    rcases hd with hj | hj <;> rw [hj] <;> exact id
  constructor
  · intro o ho
    refine mem_erase.mpr ⟨fun heq => ?_, hiso.handled o ho⟩
    subst heq
    exact hs ho
  · intro o hi ho
    obtain ⟨hw, ha⟩ := hiso.alone o hi ho
    refine ⟨?_, ha⟩
    have hl : run.loop ≠ .joining := by
      intro heq
      rw [heq] at hw
      simp at hw
    simpa only [if_neg hl] using hw

lemma Isolation.step (hd : Drained g run e) (h : run.step g bail e = some r') : Isolation g r' := by
  cases stepped_of_step h with
  | loop hs => exact hiso.stepLoop hd hs
  | join _ hj => exact hiso.join hj
  | begin hj hs =>
    obtain ⟨n, _, hs⟩ := bind_eq_some_iff.mp hs
    dsimp only at hs
    split_ifs at hs <;> cases hs <;> exact hiso.moveJob hj (fun _ => trivial) rfl rfl rfl
  | ran hj hs =>
    obtain ⟨n, _, hs⟩ := bind_eq_some_iff.mp hs
    cases hs
    exact hiso.moveJob hj (fun _ => trivial) rfl rfl rfl
  | settle hj | signal hj | removeRunning hj | insertCompleted hj | send hj | kill _ hj =>
    exact hiso.moveJob hj False.elim rfl rfl rfl
  | receive | cancel => exact hiso.jobs rfl (.inl rfl) (fun _ hr => hr)
  | shutdown => exact hiso.jobs rfl (.inr rfl) (fun _ hr => hr)

end

end

/-- In every run whose interactive actions are spawned while nothing else runs, an interactive
action is the only one that runs, under every concurrency limit. -/
theorem interactive_runs_alone (graph : ActionGraph) (bail : Bool) (concurrency : Nat)
    (topoIndices : List Nat) (events : List PipelineRunEvent) (p : InternalRun)
    (halong : Along (InternalRun.step graph bail concurrency)
      (fun p event => Drained graph p.run event) (InternalRun.new graph topoIndices) events)
    (hrun : exec (InternalRun.step graph bail concurrency) (InternalRun.new graph topoIndices)
      events = some p) {index other : Nat} (hinteractive : IsInteractive graph index)
    (hrunning : p.run.jobs index = some .running) (hother : p.run.jobs other = some .running) :
    other = index := by
  have hiso : Isolation graph p.run := by
    refine exec_invariant_along (P := fun p => Isolation graph p.run) ?_ ?_ halong hrun
    case refine_2 =>
      unfold new
      split_ifs <;> exact ⟨fun _ hrun => hrun.elim, fun _ _ hrun => hrun.elim⟩
    intro before event after hiso hd hs
    rcases run_of_step hs with ⟨run, results, hs, heq⟩ | heq
    · rw [heq]
      have hn := hiso.step hd hs
      exact ⟨hn.handled, hn.alone⟩
    · rw [heq]
      exact hiso
  exact (hiso.alone index hinteractive (by simp [hrunning, MayRun])).2 other
    (by simp [hother, MayRun])

def buildAndInit : ActionGraph where
  nodes := [.runTask { target := Target.new "app" "build", id := some 7 },
    .runTask { target := Target.new "app" "init", interactive := true, id := some 8 }]
  edges := []
  edges_lt := by decide
  acyclic := ActionGraph.empty.acyclic

/-- Both are spawned and given one of two permits. -/
theorem interactive_runs_beside_build :
    ∃ events p, exec (InternalRun.step buildAndInit false 2) (InternalRun.new buildAndInit [0, 1])
        events = some p ∧
      IsInteractive buildAndInit 1 ∧ p.run.jobs 1 = some .running ∧
      p.run.jobs 0 = some .running :=
  ⟨replicate 6 .loop ++ [.begin 0] ++ replicate 5 .loop ++ [.begin 1], _, rfl,
    ⟨_, rfl, rfl⟩, rfl, rfl⟩

def syncThenInit : ActionGraph where
  nodes := [.syncWorkspace,
    .runTask { target := Target.new "app" "init", interactive := true, id := some 8 }]
  edges := [(1, 0)]
  edges_lt := by decide
  acyclic := acyclic_pair

def syncPasses : ActionRunEnv where
  emit _ := true
  hasProject _ := true
  outcome := { result := .ok .passed }

theorem init_runs_alone :
    ∃ events p, exec (InternalRun.step syncThenInit false 2) (InternalRun.new syncThenInit [0, 1])
        events = some p ∧ p.run.jobs 1 = some .running ∧
      ∀ other, p.run.jobs other = some .running → other = 1 := by
  let events : List PipelineRunEvent := replicate 5 .loop ++
    [.begin 0, .ran 0 syncPasses, .settle 0, .signal 0, .removeRunning 0, .insertCompleted 0,
      .send 0] ++ replicate 4 .loop ++ [.begin 1]
  have hf : ∀ (run : PipelineRun) (e : PipelineRunEvent), run.loop = .top ∨
      run.loop = .calling ∨ run.loop = .dispatching 0 ∨ run.loop = .exhausting true →
      Drained syncThenInit run e := by
    intro run e hl
    cases e with
    | loop =>
      refine ⟨fun i n hd hn hy => ?_, fun heq => ?_⟩
      · rw [hd] at hl
        simp only [reduceCtorEq, LoopPhase.dispatching.injEq, false_or, or_false] at hl
        subst hl
        cases hn
        cases hy
      · rw [heq] at hl
        simp at hl
    | _ => trivial
  have ha : Along (InternalRun.step syncThenInit false 2)
      (fun p e => Drained syncThenInit p.run e) (new syncThenInit [0, 1])
      events := by
    iterate 5 refine Along.cons (hf _ _ (by decide)) rfl ?_
    iterate 7 refine Along.cons trivial rfl ?_
    iterate 3 refine Along.cons (hf _ _ (by decide)) rfl ?_
    -- the sync has finished by now
    refine Along.cons ⟨fun _ _ _ _ _ _ other ho => ?_,
      fun hl => LoopPhase.noConfusion hl⟩ rfl (Along.cons trivial rfl trivial)
    cases other with
    | zero => exact ho
    | succ other => exact ho
  exact ⟨events, _, rfl, rfl, fun other ho => interactive_runs_alone syncThenInit false 2
    [0, 1] events _ ha rfl ⟨_, rfl, rfl⟩ rfl ho⟩

section

variable {g : ActionGraph} {bail : Bool} {n i : Nat} {run r' : PipelineRun} {p p' : InternalRun}

lemma running_of_setJob {o : Nat} {ph : JobPhase} (h : (run.setJob o ph).jobs i = some .running)
    (hp : ph ≠ .running) : i ≠ o ∧ run.jobs i = some .running := by
  by_cases heq : i = o
  · simp [PipelineRun.setJob, heq, hp] at h
  · exact ⟨heq, (update_of_ne heq _ _).symm.trans h⟩

lemma running_of_stepLoop (hs : run.stepLoop g = some r') (h : r'.jobs i = some .running) :
    run.jobs i = some .running := by
  unfold PipelineRun.stepLoop PipelineRun.dispatchNode at hs
  repeat' split at hs
  all_goals first
    | cases hs <;> exact h
    | cases hs <;> exact (running_of_setJob h (by simp)).2
    | cases hs <;> grind [PipelineRun.spawnPersistent]
    | (obtain ⟨marked, hm, hs⟩ := bind_eq_some_iff.mp hs
       cases hs
       exact (markCompleted_same hm).1 ▸ h)

/-- Only a job that begins comes to run. -/
lemma running_of_step (hs : run.step g bail e = some r') (h : r'.jobs i = some .running) :
    run.jobs i = some .running ∨ e = .begin i := by
  cases stepped_of_step hs with
  | loop hs => exact .inl (running_of_stepLoop hs h)
  | @begin o _ _ hs =>
    obtain ⟨node, _, hs⟩ := bind_eq_some_iff.mp hs
    by_cases heq : i = o
    · exact .inr (by rw [heq])
    · dsimp only at hs
      split_ifs at hs <;> cases hs <;> exact .inl ((update_of_ne heq _ _).symm.trans h)
  | ran _ hs =>
    obtain ⟨node, _, hs⟩ := bind_eq_some_iff.mp hs
    cases hs
    exact .inl (running_of_setJob h (by simp)).2
  | settle | signal | removeRunning | insertCompleted | send | kill =>
    exact .inl (running_of_setJob h (by simp)).2
  | join | receive | cancel | shutdown => exact .inl h

/-- An action that runs has its permit, and there are no more permits than the limit. -/
structure Permitted (graph : ActionGraph) (concurrency : Nat) (p : InternalRun) : Prop where
  held : ∀ index, needsPermit graph index → p.run.jobs index = some .running → index ∈ p.permits
  card : p.permits.card ≤ concurrency

lemma Permitted.step (hp : Permitted g n p) (h : p.step g bail n e = some p') :
    Permitted g n p' := by
  have hr : ∀ i, p'.run.jobs i = some .running → p.run.jobs i = some .running ∨ e = .begin i := by
    intro i hi
    rcases run_of_step h with ⟨run, results, hs, heq⟩ | heq <;> rw [heq] at hi
    · exact running_of_step hs hi
    · exact .inl hi
  cases e with
  | begin o =>
    simp only [InternalRun.step] at h
    split at h
    · cases h
    rename_i hf
    obtain ⟨run, hs, h⟩ := bind_eq_some_iff.mp h
    cases h
    have hc := card_insert_le o p.permits
    obtain ⟨hh, hp⟩ := hp
    constructor <;> grind
  | send o | kill o =>
    obtain ⟨run, hs, h⟩ := bind_eq_some_iff.mp h
    cases h
    refine ⟨fun i hi hrun => ?_, card_erase_le.trans hp.card⟩
    refine mem_erase.mpr ⟨?_, hp.held i hi ((hr i hrun).resolve_right (by simp))⟩
    cases stepped_of_step hs
    exact (running_of_setJob (by simpa [apply_ite PipelineRun.jobs] using hrun) (by simp)).1
  | _ =>
    have hm : p'.permits = p.permits := by
      simp only [InternalRun.step, receive, collect] at h
      repeat' split at h
      all_goals first
        | cases h <;> rfl
        | (obtain ⟨run, _, h⟩ := bind_eq_some_iff.mp h
           cases h
           grind)
    refine ⟨fun i hi hrun => ?_, hm ▸ hp.card⟩
    rw [hm]
    exact hp.held i hi ((hr i hrun).resolve_right (by simp))

end

/-- Whatever the order of the steps, no more actions that need a permit run at once than the
pipeline may run. -/
theorem running_within_concurrency (graph : ActionGraph) (bail : Bool) (concurrency : Nat)
    (topoIndices : List Nat) (events : List PipelineRunEvent) (p : InternalRun)
    (hrun : exec (InternalRun.step graph bail concurrency) (InternalRun.new graph topoIndices)
      events = some p) (indices : Finset Nat)
    (hindices : ∀ index ∈ indices, needsPermit graph index ∧ p.run.jobs index = some .running) :
    indices.card ≤ concurrency := by
  have hp : Permitted graph concurrency p := by
    refine exec_invariant (fun _ _ _ h hs => h.step hs) ?_ hrun
    unfold new
    split_ifs <;> exact ⟨fun _ _ h => (by cases h), Nat.zero_le _⟩
  refine (card_le_card fun index hi => ?_).trans hp.card
  exact hp.held index (hindices index hi).1 (hindices index hi).2

theorem build_and_init_take_both_permits :
    ∃ events p, exec (InternalRun.step buildAndInit false 2) (InternalRun.new buildAndInit [0, 1])
        events = some p ∧ p.run.jobs 0 = some .running ∧ p.run.jobs 1 = some .running ∧
      ({0, 1} : Finset Nat).card ≤ 2 := by
  let events : List PipelineRunEvent :=
    replicate 6 .loop ++ [.begin 0] ++ replicate 5 .loop ++ [.begin 1]
  exact ⟨events, _, rfl, rfl, rfl,
    running_within_concurrency buildAndInit false 2 [0, 1] events _ rfl {0, 1} (by decide)⟩

end Moon.Proofs
