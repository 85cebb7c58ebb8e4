import Moon.Proofs.Isolation
import Moon.Proofs.JobDispatcher

/-! # Failed provisioning -/

namespace Moon.Proofs

open Moon.Lib List Function Finset PipelineRun Moon.Action

variable {p : JobPhase} {loop : LoopPhase}

variable {i : Nat}

section

variable {env : ActionRunEnv} {action : Action} {b : Bool}

def eventsOf (node : ActionNode) : List EventType :=
  [.actionStarted] ++ (operationEvents node).elim [] (fun events => [events.1, events.2]) ++
    [.actionCompleted]

structure Undisturbed (env : ActionRunEnv) (node : ActionNode) : Prop where
  events : ∀ event ∈ eventsOf node, env.emit event = true
  project : ∀ projectId, operationProject node = some projectId → env.hasProject projectId = true

structure SameAction (action after : Action) : Prop where
  node : after.node = action.node
  allowFailure : action.allowFailure = false → action.node.isRunTask = false →
    after.allowFailure = false

lemma performOperation_same (env : ActionRunEnv) (action : Action) :
    SameAction action (performOperation env action).1 := by
  unfold performOperation
  split
  · exact ⟨rfl, fun ha _ => ha⟩
  · refine ⟨rfl, fun _ ht => ?_⟩
    simp [ht]

lemma runOperation_same (env : ActionRunEnv) (action : Action) :
    SameAction action (runOperation env action).1 := by
  have hp := performOperation_same env action
  have hl : SameAction action action := ⟨rfl, fun ha _ => ha⟩
  unfold runOperation
  split_ifs
  · exact hl
  · split
    · exact hp
    · split_ifs
      · exact hl
      · exact hp
      · exact hp

lemma SameAction.conclude {after : Action} (h : SameAction action after)
    (r : Except String ActionStatus) : SameAction action (after.conclude r) := by
  cases r <;> exact ⟨h.node, h.allowFailure⟩

lemma runAction_spec (env : ActionRunEnv) (action : Action) :
    SameAction action (runAction env action).1 ∧
      ((runAction env action).2 → shouldAbortOnFailure action.node →
        (runAction env action).1.hasFailed → (runAction env action).1.status = .aborted) := by
  have hsm := runOperation_same env action
  unfold runAction
  by_cases hs : env.emit .actionStarted
  · simp only [hs, Bool.not_true, Bool.false_eq_true, if_false]
    rcases hr : runOperation env action with ⟨after, _ | r⟩
    · rw [hr] at hsm
      exact ⟨hsm, fun hok => absurd hok Bool.false_ne_true⟩
    · rw [hr] at hsm
      have hc := SameAction.conclude hsm r
      dsimp only
      by_cases hcm : env.emit .actionCompleted
      · simp only [hcm, Bool.not_true, Bool.false_eq_true, if_false]
        by_cases hf : ((after.conclude r).hasFailed && shouldAbortOnFailure (after.conclude r).node)
        · rw [if_pos hf]
          exact ⟨⟨hc.node, hc.allowFailure⟩, fun _ _ _ => rfl⟩
        · rw [if_neg hf]
          refine ⟨hc, fun _ hp hh => absurd ?_ hf⟩
          rw [hc.node, hh, hp]
          rfl
      · simp only [hcm, Bool.not_false, if_true]
        exact ⟨hc, fun hok => absurd hok Bool.false_ne_true⟩
  · simp only [hs, Bool.not_false, if_true]
    exact ⟨⟨rfl, fun ha _ => ha⟩, fun hok => absurd hok Bool.false_ne_true⟩

lemma runOperation_isSome (hp : ∀ pr, operationProject action.node = some pr → env.hasProject pr)
    (hev : ∀ e ∈ eventsOf action.node, env.emit e) :
    ∃ after r, runOperation env action = (after, some r) := by
  have hf : ¬ (operationProject action.node).any (fun pr => !env.hasProject pr) := by
    cases hi : operationProject action.node with
    | none => simp
    | some pr => simp [hp pr hi]
  unfold runOperation
  rw [if_neg hf]
  cases hk : operationEvents action.node with
  | none => exact ⟨_, _, rfl⟩
  | some ks =>
    have hb : env.emit ks.1 := hev _ (by simp [eventsOf, hk])
    have ha : env.emit ks.2 := hev _ (by simp [eventsOf, hk])
    simp [hb, ha]

lemma Undisturbed.ok (h : Undisturbed env action.node) : (runAction env action).2 := by
  have hs : env.emit .actionStarted := h.events _ (by simp [eventsOf])
  have hc : env.emit .actionCompleted := h.events _ (by simp [eventsOf])
  obtain ⟨after, r, hr⟩ := runOperation_isSome h.project h.events
  simp only [runAction, hs, hr, hc, Bool.not_true, Bool.false_eq_true, if_false]
  split_ifs <;> rfl

/-- The action of a failed provisioning job stops the pipeline, unless an error made it an ordinary
failure and those do not. -/
lemma failed_aborts {n : ActionNode} (hp : shouldAbortOnFailure n) (han : b ∨ Undisturbed env n) :
    let run := runAction env (new n i)
    let action := if run.2 then run.1 else run.1.finish .failed
    action.hasFailed → shouldAbortPipeline b action := by
  intro run action hf
  obtain ⟨hsm, ha⟩ := runAction_spec env (new n i)
  have ht : n.isRunTask = false := by
    cases n <;> first | rfl | cases hp
  have hal : action.allowFailure = false := by
    have hr : run.1.allowFailure = false := hsm.allowFailure rfl ht
    by_cases hok : run.2
    · simpa only [action, if_pos hok] using hr
    · rw [show action = run.1.finish .failed from if_neg hok]
      exact hr
  cases han with
  | inl hb => simp [shouldAbortPipeline, hb, shouldBail, hal, hf]
  | inr hu =>
    have hok : run.2 := hu.ok
    simp only [action, if_pos hok] at hf ⊢
    have hs : run.1.status = .aborted := ha hok hp hf
    simp [shouldAbortPipeline, shouldAbort, hs]

end

section

variable (g : ActionGraph) (b : Bool)

/-- Its failure stops the pipeline. -/
def IsProvisioning (index : Nat) : Prop :=
  ∃ node, g.nodes[index]? = some node ∧ shouldAbortOnFailure node = true

/-- The action waits for the other one. -/
def DependsOn (index depIndex : Nat) : Prop :=
  Relation.TransGen (fun source target => target ∈ g.neighbors source) index depIndex

def Aborting : Option JobPhase → Prop
  | some (.ran action) | some (.sending action) => shouldAbortPipeline b action = true
  | _ => False

def Completing : Option JobPhase → Prop
  | some (.removed _) | some (.completed _) | some .finished | some .killed => True
  | _ => False

/-- A node is returned only when its dependencies are done. -/
structure RunOk (run : PipelineRun) : Prop where
  safe : Safe g run.dispatcher
  /-- What was returned has its dependencies completed. -/
  ready : ∀ index ∈ run.dispatcher.visited, Ready g run.dispatcher.completedJobs index
  spawned : ∀ index, run.jobs index ≠ none → index ∈ run.dispatcher.visited
  dispatching : ∀ index, run.loop = .dispatching index →
    index ∈ run.dispatcher.visited ∧ run.jobs index = none
  persistent : ∀ index ∈ run.persistentIndices,
    index ∈ run.dispatcher.visited ∧ ¬ IsProvisioning g index
  completed : ∀ index, IsProvisioning g index →
    index ∈ run.dispatcher.completing ∨ index ∈ run.dispatcher.completedJobs →
      Completing (run.jobs index)
  failed : ∀ index ∈ run.failed, IsProvisioning g index →
    run.isAbortedOrCancelled = true ∨ Aborting b (run.jobs index)
  started : ∀ index ∈ run.started, index ∈ run.dispatcher.visited ∧
    ∀ depIndex ∈ run.failed, IsProvisioning g depIndex → ¬ DependsOn g index depIndex

variable {g b} {run r' : PipelineRun}

variable {j : Nat}

section

variable (hok : RunOk g b run) (hvisited : i ∈ run.dispatcher.visited)
include hok hvisited

lemma RunOk.dependency (h : DependsOn g i j) : j ∈ run.dispatcher.completedJobs := by
  induction h with
  | single hd => exact hok.ready i hvisited _ hd
  | tail _ hd ih => exact hok.ready _ (hok.safe.completed ih) _ hd

lemma RunOk.stopped (hd : DependsOn g i j) (hf : j ∈ run.failed)
    (hp : IsProvisioning g j) : run.isAbortedOrCancelled := by
  have hc := hok.completed j hp (.inr (hok.dependency hvisited hd))
  refine (hok.failed j hf hp).resolve_right (fun ha => ?_)
  cases hj : run.jobs j with
  | none => exact (hj ▸ ha : Aborting b none)
  | some p =>
    rw [hj] at ha hc
    cases p <;> first | exact ha | exact hc

end

variable {a : Bool}

lemma RunOk.setJob (hok : RunOk g b run) (hvisited : i ∈ run.dispatcher.visited)
    (ht : run.abortToken → a) (hl : ∀ o, loop = .dispatching o → run.loop = .dispatching o ∧ o ≠ i)
    (hc : IsProvisioning g i → Completing (run.jobs i) → Completing (some p))
    (hf : i ∈ run.failed → IsProvisioning g i → a ∨ run.cancelToken ∨ Aborting b (some p)) :
    RunOk g b { run.setJob i p with abortToken := a, loop := loop } where
  safe := hok.safe
  ready := hok.ready
  spawned := by
    intro o ho
    by_cases heq : o = i
    · rw [heq]
      exact hvisited
    · exact hok.spawned o (update_of_ne heq (some p) run.jobs ▸ ho)
  dispatching := by
    intro o ho
    obtain ⟨hol, hne⟩ := hl o ho
    obtain ⟨hm, hn⟩ := hok.dispatching o hol
    refine ⟨hm, ?_⟩
    change update run.jobs i (some p) o = none
    rw [update_of_ne hne]
    exact hn
  persistent := hok.persistent
  completed := by
    intro o hp hm
    have hol := hok.completed o hp hm
    change Completing (update run.jobs i (some p) o)
    by_cases heq : o = i
    · subst heq
      rw [update_self]
      exact hc hp hol
    · rw [update_of_ne heq]
      exact hol
  failed := by
    intro o ho hp
    change _ ∨ Aborting b (update run.jobs i (some p) o)
    by_cases heq : o = i
    · subst heq
      rw [update_self]
      have hnew := hf ho hp
      simp only [isAbortedOrCancelled, setJob, Bool.or_eq_true]
      tauto
    · rw [update_of_ne heq]
      refine (hok.failed o ho hp).imp_left (fun h => ?_)
      simp only [isAbortedOrCancelled, Bool.or_eq_true] at h ⊢
      exact h.imp_left ht
  started := hok.started

lemma RunOk.mark (hok : RunOk g b run) {e : DispatchEvent}
    (hev : e = .removeRunning i ∨ e = .insertCompleted i)
    (hc : IsProvisioning g i → Completing (run.jobs i))
    {d : JobDispatcher} (hs : run.dispatcher.step g e = some d) :
    RunOk g b { run with dispatcher := d } := by
  have hsf := safe_step _ _ _ hok.safe hs
  have hmk : d.visited = run.dispatcher.visited ∧
      run.dispatcher.completedJobs ⊆ d.completedJobs ∧
      ∀ o, o ∈ d.completing ∨ o ∈ d.completedJobs → o = i ∨ o ∈ run.dispatcher.completing ∨
          o ∈ run.dispatcher.completedJobs := by
    rcases hev with rfl | rfl
    · simp only [JobDispatcher.step] at hs
      split_ifs at hs
      cases hs
      refine ⟨rfl, Finset.Subset.refl _, fun o ho => ?_⟩
      simpa only [mem_insert, or_assoc] using ho
    · simp only [JobDispatcher.step] at hs
      split_ifs at hs
      cases hs
      refine ⟨rfl, subset_insert _ _, fun o ho => ?_⟩
      simp only [mem_erase, mem_insert] at ho
      tauto
  obtain ⟨hvisited, hg, hm⟩ := hmk
  exact {
    safe := hsf
    ready := fun o ho =>
      (hok.ready o (hvisited ▸ ho)).mono hg
    spawned := fun o ho => hvisited ▸ hok.spawned o ho
    dispatching := fun o ho => hvisited ▸ hok.dispatching o ho
    persistent := fun o ho => hvisited ▸ hok.persistent o ho
    completed := by
      intro o hp ho
      rcases hm o ho with heq | hol
      · subst heq
        exact hc hp
      · exact hok.completed o hp hol
    failed := hok.failed
    started := fun o ho => hvisited ▸ hok.started o ho }

lemma pollStep_returns {d d' : JobDispatcher} (hs : Safe g d) (h : PollStep g d d') :
    d'.completing = d.completing ∧ d'.completedJobs = d.completedJobs ∧
      (d'.visited = d.visited ∧ (d'.next = .idle → d'.returned = none :: d.returned) ∨
        ∃ i, i ∉ d.visited ∧ Ready g d.completedJobs i ∧
          d'.visited = insert i d.visited ∧ d'.returned = some i :: d.returned) := by
  have hn := hs.next
  cases h with
  | free heq hf _ =>
    rw [heq] at hn
    obtain ⟨hnw, hr, _⟩ := (searchSpec_of_eq hf).found _ rfl
    exact ⟨rfl, rfl, .inr ⟨_, hnw, hr.mono hn, rfl, rfl⟩⟩
  | insert heq =>
    rw [heq] at hn
    exact ⟨rfl, rfl, .inr ⟨_, hn.1, hn.2.1, rfl, rfl⟩⟩
  | finish _ => exact ⟨rfl, rfl, .inl ⟨rfl, fun _ => rfl⟩⟩
  | call | pass | candidate | defer | claim =>
    exact ⟨rfl, rfl, .inl ⟨rfl, fun hi => (by cases hi)⟩⟩

section

variable (hok : RunOk g b run)
include hok

lemma RunOk.poll : RunOk g b (run.poll g) := by
  have hp := pollStep_poll g run.dispatcher
  obtain ⟨hcp, hc, hvisited⟩ := pollStep_returns hok.safe hp
  have hs : run.dispatcher.visited ⊆ (run.dispatcher.poll g).visited := by
    rcases hvisited with ⟨heq, _⟩ | ⟨i, _, _, heq, _⟩
    · exact heq.symm.subset
    · exact heq ▸ subset_insert _ _
  exact {
    safe := safe_pollStep hok.safe hp
    ready := by
      intro o ho
      change o ∈ (run.dispatcher.poll g).visited at ho
      change Ready g (run.dispatcher.poll g).completedJobs o
      rw [hc]
      rcases hvisited with ⟨heq, _⟩ | ⟨i, _, hr, heq, _⟩
      · exact hok.ready o (heq ▸ ho)
      · rcases mem_insert.mp (heq ▸ ho) with hnw | hol
        · exact hnw ▸ hr
        · exact hok.ready o hol
    spawned := fun o ho => hs (hok.spawned o ho)
    dispatching := by
      intro o ho
      simp only [PipelineRun.poll] at ho
      split_ifs at ho with hi
      rcases hvisited with ⟨_, hn⟩ | ⟨i, hnw, _, heq, hrt⟩
      · rw [hn hi] at ho
        cases ho
      · rw [hrt] at ho
        cases ho
        refine ⟨heq ▸ mem_insert_self _ _, ?_⟩
        exact not_not.mp (fun hj => hnw (hok.spawned o hj))
    persistent := fun o ho =>
      ⟨hs (hok.persistent o ho).1, (hok.persistent o ho).2⟩
    completed := by
      intro o hpr ho
      refine hok.completed o hpr ?_
      rw [← hcp, ← hc]
      exact ho
    failed := hok.failed
    started := fun o ho =>
      ⟨hs (hok.started o ho).1, (hok.started o ho).2⟩ }

lemma RunOk.markCompleted (hc : ¬ IsProvisioning g i) (h : run.markCompleted g i = some r') :
    RunOk g b r' ∧ r'.dispatcher.visited = run.dispatcher.visited ∧
      r'.jobs = run.jobs ∧ r'.persistentIndices = run.persistentIndices := by
  obtain ⟨removed, hr, h⟩ := Option.bind_eq_some_iff.mp h
  obtain ⟨inserted, hi, h⟩ := Option.bind_eq_some_iff.mp h
  cases h
  have hf := hok.mark (.inl rfl) (fun hp => absurd hp hc) hr
  have hs := hf.mark (.inr rfl) (fun hp => absurd hp hc) hi
  refine ⟨hs, ?_, rfl, rfl⟩
  simp only [JobDispatcher.step] at hr hi
  split_ifs at hr hi
  cases hr
  cases hi
  rfl

lemma RunOk.setLoop (hl : ∀ i, loop ≠ .dispatching i) : RunOk g b { run with loop := loop } :=
  { hok with dispatching := fun i heq => absurd heq (hl i) }

lemma RunOk.dispatchNode (hlp : run.loop = .dispatching i)
    (h : run.dispatchNode g i = some r') : RunOk g b r' := by
  obtain ⟨hvisited, hn⟩ := hok.dispatching i hlp
  unfold PipelineRun.dispatchNode at h
  cases hnd : g.nodes[i]? with
  | none =>
    rw [hnd] at h
    obtain ⟨marked, hmr, h⟩ := Option.bind_eq_some_iff.mp h
    cases h
    have hms : ¬ IsProvisioning g i := by
      intro ⟨n, hf, _⟩
      rw [hnd] at hf
      cases hf
    exact (hok.markCompleted hms hmr).1.setLoop (fun _ => LoopPhase.noConfusion)
  | some n =>
    rw [hnd] at h
    dsimp only at h
    by_cases hp : n.isPersistent
    · rw [if_pos hp] at h
      obtain ⟨marked, hmr, h⟩ := Option.bind_eq_some_iff.mp h
      cases h
      have ht : ¬ IsProvisioning g i := by
        intro ⟨f, hf, hpr⟩
        rw [hnd] at hf
        cases hf
        cases n <;> first | cases hp | cases hpr
      obtain ⟨hm, hsm, _, hind⟩ := hok.markCompleted ht hmr
      have hnw : ∀ o ∈ marked.persistentIndices ++ [i],
          o ∈ marked.dispatcher.visited ∧ ¬ IsProvisioning g o := by
        intro o ho
        rcases mem_append.mp ho with hol | hl
        · exact hm.persistent o hol
        · rw [List.mem_singleton] at hl
          subst hl
          exact ⟨hsm ▸ hvisited, ht⟩
      have htp : RunOk g b { marked with loop := .top } :=
        hm.setLoop (fun _ => LoopPhase.noConfusion)
      exact { htp with persistent := hnw }
    · rw [if_neg hp] at h
      cases h
      have htk : i ∈ run.failed → IsProvisioning g i →
          run.abortToken ∨ run.cancelToken ∨ Aborting b (some .queued) := by
        intro hfl hpr
        have hol := hok.failed i hfl hpr
        rw [hn] at hol
        simpa [isAbortedOrCancelled, Aborting] using hol
      have hs : RunOk g b { run.setJob i .queued with
          abortToken := run.abortToken
          loop := if n.isInteractive then .exhausting true else .top } :=
        hok.setJob hvisited id (fun o ho => by split_ifs at ho)
          (fun _ hc => by rw [hn] at hc; exact hc) htk
      exact { hs with }

lemma RunOk.spawnPersistent : RunOk g b run.spawnPersistent := by
  have ho : ∀ i, IsProvisioning g i →
      run.spawnPersistent.jobs i = run.jobs i := by
    intro i hp
    exact if_neg (fun hm => (hok.persistent i hm).2 hp)
  exact { hok with
    spawned := by
      intro i hj
      by_cases hm : i ∈ run.persistentIndices
      · exact (hok.persistent i hm).1
      · refine hok.spawned i (fun hn => hj ?_)
        exact (if_neg hm).trans hn
    dispatching := fun i hl => LoopPhase.noConfusion hl
    completed := by
      intro i hp hm
      rw [ho i hp]
      exact hok.completed i hp hm
    failed := by
      intro i hf hp
      rw [ho i hp]
      exact hok.failed i hf hp }

lemma RunOk.stepLoop (h : run.stepLoop g = some r') : RunOk g b r' := by
  unfold PipelineRun.stepLoop at h
  split at h
  · split_ifs at h <;> cases h <;> exact hok.setLoop (fun _ => LoopPhase.noConfusion)
  · cases h
    exact hok.poll
  · rename_i i hl
    exact hok.dispatchNode hl h
  · split_ifs at h
    cases h
    exact hok.setLoop (fun _ => LoopPhase.noConfusion)
  · split_ifs at h
    · cases h
      exact hok.setLoop (fun _ => LoopPhase.noConfusion)
    · cases h
      exact hok.setLoop (fun _ => LoopPhase.noConfusion)
    · cases h
      exact hok.spawnPersistent
  · cases h

lemma RunOk.moveJob {old : JobPhase} (hj : run.jobs i = some old)
    (hc : Completing (some old) → Completing (some p)) (ht : run.abortToken → a)
    (ha : Aborting b (some old) → a ∨ run.cancelToken ∨ Aborting b (some p)) :
    RunOk g b { run.setJob i p with abortToken := a } := by
  have hs : run.jobs i ≠ none := by simp [hj]
  refine hok.setJob (hok.spawned i hs) ht (fun o ho => ⟨ho, ?_⟩)
    (fun _ hcp => hc (hj ▸ hcp)) (fun hf hp => ?_)
  · intro heq
    rw [heq] at ho
    exact hs (hok.dispatching i ho).2
  · have hol := hok.failed i hf hp
    rw [hj] at hol
    simp only [isAbortedOrCancelled, Bool.or_eq_true] at hol
    rcases hol with (hab | hcn) | hol
    · exact .inl (ht hab)
    · exact .inr (.inl hcn)
    · exact ha hol

lemma RunOk.beginJob (hj : run.jobs i = some .queued)
    (h : run.beginJob g i = some r') : RunOk g b r' := by
  obtain ⟨n, hnd, h⟩ := Option.bind_eq_some_iff.mp h
  have hm : ∀ p, RunOk g b (run.setJob i p) := by
    intro p
    exact hok.moveJob hj False.elim id False.elim
  dsimp only at h
  split_ifs at h with ha hc
  · cases h
    exact hm _
  · cases h
    exact hm _
  · cases h
    have hvisited : i ∈ run.dispatcher.visited := hok.spawned i (by simp [hj])
    -- no token was set, so none of the failed actions is among the dependencies
    have hf : ∀ j ∈ run.failed, IsProvisioning g j →
        ¬ DependsOn g i j := by
      intro j hfl hp hd
      have hs := hok.stopped hvisited hd hfl hp
      simp [isAbortedOrCancelled, ha, hc] at hs
    have hr := hm .running
    exact { hr with
      started := by
        intro o ho
        rcases mem_cons.mp ho with heq | hol
        · rw [heq]
          exact ⟨hvisited, hf⟩
        · exact hok.started o hol }

lemma RunOk.endRun {env : ActionRunEnv}
    (han : b ∨ ∀ n, g.nodes[i]? = some n → shouldAbortOnFailure n → Undisturbed env n)
    (hj : run.jobs i = some .running) (h : run.endRun g i env = some r') : RunOk g b r' := by
  obtain ⟨n, hn, h⟩ := Option.bind_eq_some_iff.mp h
  cases h
  set action := if (runAction env (new n i)).2 then
      (runAction env (new n i)).1
    else (runAction env (new n i)).1.finish .failed with hact
  have hr : RunOk g b (run.setJob i (.ran action)) := hok.moveJob hj False.elim id False.elim
  have ha : IsProvisioning g i → action.hasFailed →
      shouldAbortPipeline b action := by
    intro ⟨f, hfd, hp⟩
    cases hn.symm.trans hfd
    exact failed_aborts hp (han.imp_right (fun h => h n hn hp))
  have hm : ∀ o ∈ (if action.hasFailed then insert i run.failed else run.failed),
      o ∈ run.failed ∨ o = i ∧ action.hasFailed := by
    intro o ho
    split_ifs at ho with hf
    · rcases mem_insert.mp ho with heq | hol
      · exact .inr ⟨heq, hf⟩
      · exact .inl hol
    · exact .inl ho
  exact { hr with
    failed := by
      intro o ho hp
      rcases hm o ho with hol | ⟨heq, hf⟩
      · exact hr.failed o hol hp
      · subst heq
        refine .inr ?_
        change Aborting b (update run.jobs o (some (.ran action)) o)
        rw [update_self]
        exact ha hp hf
    started := by
      intro o ho
      obtain ⟨hvisited, hfr⟩ := hok.started o ho
      refine ⟨hvisited, fun j hd hp => ?_⟩
      rcases hm j hd with hol | ⟨heq, _⟩
      · exact hfr j hol hp
      · -- it was still running, so nothing that depends on it was dispatched
        subst heq
        intro hd
        have hc := hok.completed _ hp (.inr (hok.dependency hvisited hd))
        simp [hj, Completing] at hc }

end

/-- The condition on a step: where a provisioning action returns, either every failure
aborts the pipeline, or no subscriber got in the way. -/
def Announced (graph : ActionGraph) (bail : Bool) (_ : PipelineRun) : PipelineRunEvent → Prop
  | .ran i env => bail = true ∨ ∀ node, graph.nodes[i]? = some node →
      shouldAbortOnFailure node = true → Undisturbed env node
  | _ => True

lemma RunOk.setTokens (hok : RunOk g b run) {c : Bool} (ha : run.abortToken → a)
    (hc : run.cancelToken → c) : RunOk g b { run with abortToken := a, cancelToken := c } :=
  { hok with
    failed := by
      intro i hf hp
      refine (hok.failed i hf hp).imp_left (fun h => ?_)
      simp only [isAbortedOrCancelled, Bool.or_eq_true] at h ⊢
      exact h.imp ha hc }

lemma RunOk.step (hok : RunOk g b run) {e : PipelineRunEvent}
    (han : Announced g b run e) (h : run.step g b e = some r') : RunOk g b r' := by
  cases stepped_of_step h with
  | loop hs => exact hok.stepLoop hs
  | join =>
    refine { hok with dispatching := fun o ho => ?_ }
    change (if run.loop = .joining then LoopPhase.top else run.loop) = _ at ho
    split_ifs at ho
    exact hok.dispatching o ho
  | begin hj hs => exact hok.beginJob hj hs
  | ran hj hs => exact hok.endRun han hj hs
  | settle hj =>
    refine hok.moveJob hj False.elim id (fun hab => ?_)
    unfold settle
    split_ifs with ha hc
    · exact .inl ha
    · exact .inr (.inl hc)
    · exact .inr (.inr hab)
  | signal hj =>
    refine hok.moveJob hj False.elim (fun ha => by simp [ha]) (fun hab => ?_)
    exact .inl (by simp [show shouldAbortPipeline b _ from hab])
  | @removeRunning i action d hj hd =>
    have hm : RunOk g b (run.setJob i (.removed action)) := hok.moveJob hj False.elim id False.elim
    refine hm.mark (.inl rfl) (fun _ => ?_) hd
    change Completing (update run.jobs i _ i)
    rw [update_self]
    trivial
  | @insertCompleted i action d hj hd =>
    have hm : RunOk g b (run.setJob i (.completed action)) :=
      hok.moveJob hj (by exact fun _ => trivial) id False.elim
    refine hm.mark (.inr rfl) (fun _ => ?_) hd
    change Completing (update run.jobs i _ i)
    rw [update_self]
    trivial
  | @send i action hj =>
    have hm : RunOk g b (run.setJob i .finished) :=
      hok.moveJob hj (by exact fun _ => trivial) id False.elim
    exact { hm with }
  | @receive action rest hr =>
    have hm : RunOk g b { run with
        abortToken := run.abortToken || shouldAbortPipeline b action
        cancelToken := run.cancelToken } :=
      hok.setTokens (fun ha => by simp [ha]) id
    exact { hm with }
  | cancel => exact hok.setTokens id (fun _ => rfl)
  | shutdown => exact hok.setLoop (fun _ => LoopPhase.noConfusion)
  | kill ht hj =>
    simp only [isAbortedOrCancelled, Bool.or_eq_true] at ht
    exact hok.moveJob hj (by exact fun _ => trivial) id (fun _ => ht.imp_right .inl)

lemma runOk_new (g : ActionGraph) (b : Bool) (order : List Nat) : RunOk g b (new g order) where
  safe := safe_new g order
  ready i hi := absurd hi (notMem_empty i)
  spawned i hj := absurd rfl hj
  dispatching i hl := LoopPhase.noConfusion hl
  persistent i hi := absurd hi not_mem_nil
  completed i _ hi := by
    rcases hi with hi | hi <;> exact absurd hi (notMem_empty i)
  failed i hi := absurd hi (notMem_empty i)
  started i hi := absurd hi not_mem_nil

end

/-- In every interleaving, nothing that depends on a failed provisioning action is started, as long
as no subscriber rejects an event of a provisioning action or every failure aborts the pipeline. -/
theorem failed_provisioning_starts_no_dependent (graph : ActionGraph) (bail : Bool)
    (topoIndices : List Nat) (events : List PipelineRunEvent) (run : PipelineRun)
    (halong : Along (step graph bail) (Announced graph bail) (new graph topoIndices) events)
    (hrun : exec (step graph bail) (new graph topoIndices) events = some run) {depIndex : Nat}
    (hfailed : depIndex ∈ run.failed) (hprovisioning : IsProvisioning graph depIndex) {index : Nat}
    (hdep : DependsOn graph index depIndex) : index ∉ run.started := by
  have hok : RunOk graph bail run :=
    exec_invariant_along (fun _ _ _ h hc hst => h.step hc hst)
      (runOk_new graph bail topoIndices) halong hrun
  intro hs
  exact (hok.started index hs).2 depIndex hfailed hprovisioning hdep

def setupThenRun : ActionGraph where
  nodes := [.setupToolchain ⟨"node", none⟩,
    .runTask { target := Target.new "app" "build", id := some 7 }]
  edges := [(1, 0)]
  edges_lt := by decide
  acyclic := acyclic_pair

def failingSetup (rejected : List EventType) : ActionRunEnv where
  emit e := e ∉ rejected
  hasProject _ := true
  outcome := { result := .error "Failed to download" }

def setupFails (rejected : List EventType) : List PipelineRunEvent :=
  [.loop, .loop, .loop, .loop, .loop, .begin 0, .ran 0 (failingSetup rejected), .settle 0,
    .signal 0, .removeRunning 0, .insertCompleted 0, .send 0, .loop, .loop, .loop, .loop, .loop,
    .loop, .begin 1]

/-- A subscriber rejects the completion of the failed setup: the task is started. -/
theorem rejected_event_starts_dependent :
    ∃ run, exec (step setupThenRun false) (new setupThenRun [0, 1])
        (setupFails [.actionCompleted]) = some run ∧
      0 ∈ run.failed ∧ IsProvisioning setupThenRun 0 ∧ DependsOn setupThenRun 1 0 ∧
      1 ∈ run.started :=
  ⟨_, rfl, by decide, ⟨_, rfl, rfl⟩, .single (by decide), by decide⟩

theorem announced_failure_starts_no_dependent :
    ∃ run, exec (step setupThenRun false) (new setupThenRun [0, 1])
        (setupFails []) = some run ∧ 0 ∈ run.failed ∧ 1 ∉ run.started := by
  have hu : Undisturbed (failingSetup []) (.setupToolchain ⟨"node", none⟩) :=
    ⟨by decide, fun projectId hp => (nomatch hp)⟩
  have ha : Along (step setupThenRun false) (Announced setupThenRun false)
      (new setupThenRun [0, 1]) (setupFails []) := by
    repeat refine Along.cons trivial rfl ?_
    refine Along.cons (.inr ?_) rfl ?_
    · intro n hn _
      cases hn
      exact hu
    repeat refine Along.cons trivial rfl ?_
    trivial
  have hd : DependsOn setupThenRun 1 0 := .single (by decide)
  exact ⟨_, rfl, by decide, failed_provisioning_starts_no_dependent setupThenRun false [0, 1]
    (setupFails []) _ ha rfl (by decide) ⟨_, rfl, rfl⟩ hd⟩

end Moon.Proofs
