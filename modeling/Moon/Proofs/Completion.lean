import Mathlib.Algebra.Order.BigOperators.Group.Finset
import Moon.Proofs.InternalRun
import Moon.Proofs.Isolation

/-!
# A quiet pipeline completes

Every step of a quiet pipeline lowers a weight, and as long as a result is missing there is a
step to take.
-/

namespace Moon.Proofs

open Moon.Lib List Function InternalRun PipelineRun Option Bool Moon.Action

variable {run : PipelineRun} {d' : JobDispatcher}

def jobAction (env : ActionRunEnv) (node : ActionNode) (index : Nat) : Action :=
  let (a, ok) := runAction env (Action.new node index)
  if ok then a else a.finish .failed

/-- Nothing is cancelled, and no action fails the pipeline. -/
def Quiet (graph : ActionGraph) (bail : Bool) (_ : InternalRun) : PipelineRunEvent → Prop
  | .cancel => False
  | .ran index env => ∀ node, graph.nodes[index]? = some node →
      shouldAbortPipeline bail (jobAction env node index) = false
  | _ => True

section

variable (env : ActionRunEnv) (a : Action)

lemma performOperation_nodeIndex : (performOperation env a).1.nodeIndex = a.nodeIndex := by
  unfold performOperation
  split <;> rfl

lemma runOperation_nodeIndex : (runOperation env a).1.nodeIndex = a.nodeIndex := by
  unfold runOperation
  split_ifs
  · rfl
  · split
    · exact performOperation_nodeIndex env a
    · split_ifs
      · rfl
      · exact performOperation_nodeIndex env a
      · exact performOperation_nodeIndex env a

lemma conclude_nodeIndex (r : Except String ActionStatus) :
    (a.conclude r).nodeIndex = a.nodeIndex := by
  cases r <;> rfl

lemma runAction_nodeIndex : (runAction env a).1.nodeIndex = a.nodeIndex := by
  have ho := runOperation_nodeIndex env a
  unfold runAction
  split
  · rfl
  · split
    · rename_i left heq
      rw [heq] at ho
      exact ho
    · rename_i left result heq
      rw [heq] at ho
      have hc := (conclude_nodeIndex left result).trans ho
      dsimp only
      split_ifs
      · exact hc
      · exact hc
      · exact hc

lemma jobAction_nodeIndex (n : ActionNode) (index : Nat) :
    (jobAction env n index).nodeIndex = index := by
  have hr := runAction_nodeIndex env (new n index)
  unfold jobAction
  dsimp only
  split_ifs
  · exact hr
  · exact hr

end

variable {g : ActionGraph} {b : Bool} {l c : Nat} {p p' : InternalRun}

/-- The results that were sent are those of the finished jobs, and a permit belongs to a job
on its way. -/
structure Tally (graph : ActionGraph) (bail : Bool) (p : InternalRun) : Prop where
  quiet : ∀ action ∈ p.run.results, shouldAbortPipeline bail action = false
  once : ((p.actions ++ p.run.results).map Action.nodeIndex).Nodup
  sent : ∀ index, index ∈ (p.actions ++ p.run.results).map Action.nodeIndex ↔
    p.run.jobs index = some .finished
  receiver : p.receiver = .listening ∧ p.status = .pending ∧ p.actions.length < graph.nodes.length ∨
    p.receiver = .dropped ∧ p.status = .completed ∧ p.actions.length = graph.nodes.length
  permits : ∀ index ∈ p.permits, ∃ phase, p.run.jobs index = some phase ∧
    phase ≠ .queued ∧ phase ≠ .finished

inductive Advance (graph : ActionGraph) (bail : Bool) (d : JobDispatcher) (index : Nat) :
    JobPhase → JobPhase → JobDispatcher → Prop
  | ran {action : Action} (hindex : action.nodeIndex = index)
      (hquiet : shouldAbortPipeline bail action = false) :
      Advance graph bail d index .running (.ran action) d
  | settle {action : Action} : Advance graph bail d index (.ran action) (.sending action) d
  | signal {action : Action} : Advance graph bail d index (.sending action) (.signalled action) d
  | remove {action : Action} {d' : JobDispatcher}
      (hstep : d.step graph (.removeRunning index) = some d') :
      Advance graph bail d index (.signalled action) (.removed action) d'
  | insert {action : Action} {d' : JobDispatcher}
      (hstep : d.step graph (.insertCompleted index) = some d') :
      Advance graph bail d index (.removed action) (.completed action) d'

inductive QuietStep (graph : ActionGraph) (bail : Bool) (p : InternalRun) : InternalRun → Prop
  | enter (hloop : p.run.loop = .top) (hqueued : p.run.dispatcher.hasQueuedJobs graph = true) :
      QuietStep graph bail p { p with run := { p.run with loop := .calling } }
  | leave (hloop : p.run.loop = .top) (hdone : p.run.dispatcher.hasQueuedJobs graph = false) :
      QuietStep graph bail p { p with run := { p.run with loop := .exhausting false } }
  | poll (hloop : p.run.loop = .calling) : QuietStep graph bail p { p with run := p.run.poll graph }
  | defer {index : Nat} {d : JobDispatcher} (hloop : p.run.loop = .dispatching index)
      (hmarked : Marked graph index p.run.dispatcher d) (hcompleted : index ∈ d.completedJobs) :
      QuietStep graph bail p { p with run := { p.run with
        dispatcher := d
        loop := .top
        persistentIndices := p.run.persistentIndices ++ [index] } }
  | spawn {index : Nat} {interactive : Bool} (hloop : p.run.loop = .dispatching index) :
      QuietStep graph bail p { p with run := { p.run.setJob index .queued with
        handles := insert index p.run.handles
        loop := if interactive then .exhausting true else .top } }
  | resume (hloop : p.run.loop = .exhausting true) :
      QuietStep graph bail p { p with run := { p.run with loop := .top } }
  | persist (hloop : p.run.loop = .exhausting false) :
      QuietStep graph bail p { p with run := p.run.spawnPersistent }
  | join {index : Nat} (hwaiting : p.run.loop.isWaiting = true) (hhandle : index ∈ p.run.handles)
      (hjob : p.run.jobs index = some .finished) :
      QuietStep graph bail p { p with run := { p.run with
        handles := p.run.handles.erase index
        loop := if p.run.loop = .joining then .top else p.run.loop } }
  | begin {index : Nat} (hjob : p.run.jobs index = some .queued) :
      QuietStep graph bail p { p with
        run := { p.run.setJob index .running with started := index :: p.run.started }
        permits := if needsPermit graph index then insert index p.permits
          else p.permits }
  | advance {index : Nat} {old phase : JobPhase} {d : JobDispatcher} {failed : Finset Nat}
      (hjob : p.run.jobs index = some old)
      (hadvance : Advance graph bail p.run.dispatcher index old phase d) :
      QuietStep graph bail p { p with
        run := { p.run.setJob index phase with dispatcher := d, failed := failed } }
  | send {index : Nat} {action : Action} (hjob : p.run.jobs index = some (.completed action)) :
      QuietStep graph bail p { p with
        run := if p.receiver = .listening then
            { p.run.setJob index .finished with results := p.run.results ++ [action] }
          else { p.run.setJob index .finished with results := p.run.results }
        permits := p.permits.erase index }
  | receive {action : Action} {results : List Action} (hreceiver : p.receiver = .listening)
      (hresults : p.run.results = action :: results) :
      QuietStep graph bail p
        (collect graph { p with run := { p.run with results := results } } action)

lemma quietStep_of_stepLoop (hok : LoopOk g b l p.run)
    (h : p.run.stepLoop g = some run) : QuietStep g b p { p with run := run } := by
  have htk : p.run.isAbortedOrCancelled = false := by
    simp [isAbortedOrCancelled, hok.abort, hok.cancel]
  have hp := hok.loop
  unfold stepLoop at h
  rw [htk] at h
  split at h
  · rename_i hl
    cases hq : p.run.dispatcher.hasQueuedJobs g with
    | true =>
      rw [hq] at h
      cases h
      exact .enter hl hq
    | false =>
      rw [hq] at h
      cases h
      exact .leave hl hq
  · cases h
    exact .poll ‹_›
  · rename_i index hl
    rw [hl] at hp
    unfold dispatchNode at h
    cases hn : g.nodes[index]? with
    | none =>
      have hlt := hok.inGraph index hp.2.1
      rw [getElem?_eq_none_iff] at hn
      omega
    | some n =>
      rw [hn] at h
      dsimp only at h
      split at h
      · obtain ⟨marked, hmr, h⟩ := bind_eq_some_iff.mp h
        obtain ⟨d, rfl, hm, hc⟩ := marked_of_markCompleted hok hmr
        cases h
        exact .defer hl hm hc
      · cases h
        exact .spawn hl
  · rename_i hl
    split_ifs at h with hem
    rw [hl] at hp
    exact absurd hem hp.2
  · rename_i i hl
    split_ifs at h with hhdl ht hi
    · cases ht
    · cases h
      exact .resume (hi ▸ hl)
    · cases h
      rw [not_eq_true] at hi
      exact .persist (hi ▸ hl)
  · cases h

lemma quietStep_of_step (hok : LoopOk g b l p.run) (htally : Tally g b p) {e : PipelineRunEvent}
    (hq : Quiet g b p e) (h : p.step g b c e = some p') : QuietStep g b p p' := by
  have ht : p.run.isAbortedOrCancelled = false := by
    simp [PipelineRun.isAbortedOrCancelled, hok.abort, hok.cancel]
  have hp := hok.phase
  cases e with
  | loop =>
    obtain ⟨run, hr, h⟩ := bind_eq_some_iff.mp h
    cases h
    exact quietStep_of_stepLoop hok hr
  | join index =>
    simp only [InternalRun.step] at h
    split_ifs at h with hw
    obtain ⟨run, hr, h⟩ := bind_eq_some_iff.mp h
    cases h
    cases stepped_of_step hr with
    | join hh hj => exact .join hw hh (hj.resolve_right (fun hkl => hp index _ hkl))
  | begin index =>
    simp only [InternalRun.step] at h
    split at h
    · cases h
    · obtain ⟨run, hr, h⟩ := bind_eq_some_iff.mp h
      cases h
      cases stepped_of_step hr with
      | begin hj hs =>
        obtain ⟨n, hn, hs⟩ := bind_eq_some_iff.mp hs
        rw [hok.abort, hok.cancel] at hs
        cases hs
        exact .begin hj
  | ran index env =>
    obtain ⟨run, hr, h⟩ := bind_eq_some_iff.mp h
    cases h
    cases stepped_of_step hr with
    | ran hj hs =>
      obtain ⟨n, hn, hs⟩ := bind_eq_some_iff.mp hs
      cases hs
      have hi := jobAction_nodeIndex env n index
      exact .advance hj (.ran hi (hq n hn))
  | settle index =>
    obtain ⟨run, hr, h⟩ := bind_eq_some_iff.mp h
    cases h
    cases stepped_of_step hr with
    | @settle _ a hj =>
      have hs : p.run.settle a = a := by
        simp [PipelineRun.settle, hok.abort, hok.cancel]
      rw [hs]
      exact .advance hj .settle
  | signal index =>
    obtain ⟨run, hr, h⟩ := bind_eq_some_iff.mp h
    cases h
    cases stepped_of_step hr with
    | @signal _ a hj =>
      have hk : (p.run.abortToken || shouldAbortPipeline b a) = p.run.abortToken := by
        rw [(hp index _ hj).2, Bool.or_false]
      rw [hk]
      exact .advance hj .signal
  | removeRunning index =>
    obtain ⟨run, hr, h⟩ := bind_eq_some_iff.mp h
    cases h
    cases stepped_of_step hr with
    | removeRunning hj hd => exact .advance hj (.remove hd)
  | insertCompleted index =>
    obtain ⟨run, hr, h⟩ := bind_eq_some_iff.mp h
    cases h
    cases stepped_of_step hr with
    | insertCompleted hj hd => exact .advance hj (.insert hd)
  | send index =>
    obtain ⟨run, hr, h⟩ := bind_eq_some_iff.mp h
    cases h
    cases stepped_of_step hr with
    | send hj => exact .send hj
  | receive =>
    simp only [InternalRun.step, InternalRun.receive] at h
    have ho : p.receiver ≠ .closed := by
      rcases htally.receiver with ⟨heq, _⟩ | ⟨heq, _⟩ <;> simp [heq]
    split at h
    · cases h
    · cases h
    · exact absurd ‹_› ho
    · rename_i a rs hrs hdr
      obtain ⟨run, hr, h⟩ := bind_eq_some_iff.mp h
      cases h
      have hl : p.receiver = .listening := by
        rcases htally.receiver with ⟨heq, _⟩ | ⟨heq, _⟩
        · exact heq
        · exact absurd heq hdr
      have hk : (p.run.abortToken || shouldAbortPipeline b a) = p.run.abortToken := by
        rw [htally.quiet a (hrs ▸ mem_cons_self), Bool.or_false]
      simp only [PipelineRun.step, hrs, hk] at hr
      cases hr
      exact .receive hl hrs
  | cancel => exact hq.elim
  | shutdown =>
    obtain ⟨run, hr, _⟩ := bind_eq_some_iff.mp h
    cases stepped_of_step hr with
    | shutdown htk => cases ht.symm.trans htk
  | kill index =>
    obtain ⟨run, hr, _⟩ := bind_eq_some_iff.mp h
    cases stepped_of_step hr with
    | kill htk => cases ht.symm.trans htk

variable {phase old : JobPhase} {d : JobDispatcher} {index : Nat}

lemma Advance.spec (hok : LoopOk g b l p.run) (hj : p.run.jobs index = some old)
    (h : Advance g b p.run.dispatcher index old phase d) :
    Marked g index p.run.dispatcher d ∧ PhaseOk b d index phase := by
  have hp := hok.phase index old hj
  have hr := Marked.refl hok.safe hok.queued index
  cases h with
  | ran hi hq => exact ⟨hr, hi, hq⟩
  | settle => exact ⟨hr, hp⟩
  | signal => exact ⟨hr, hp⟩
  | remove hs =>
    obtain ⟨hmk, hm⟩ := marked_of_removeRunning hok.safe hok.queued hs
    exact ⟨hmk, hp.1, hp.2, hm⟩
  | insert hs =>
    obtain ⟨hmk, hm⟩ := marked_of_insertCompleted hok.safe hok.queued hs
    exact ⟨hmk, hp.1, hp.2.1, hm⟩

lemma Advance.between (h : Advance g b d index old phase d') :
    old ≠ .queued ∧ old ≠ .finished ∧ phase ≠ .queued ∧ phase ≠ .finished := by
  cases h <;> simp

lemma collect_run (p : InternalRun) (a : Action) : (collect g p a).run = p.run := by
  unfold collect
  dsimp only
  split_ifs <;> rfl

lemma LoopOk.quietStep (hok : LoopOk g b l p.run) (h : QuietStep g b p p') :
    LoopOk g b l p'.run := by
  have hr := Marked.refl hok.safe hok.queued
  cases h with
  | enter hl hq => exact hok.enter hl hq
  | leave hl hd => exact hok.leave hl hd
  | poll hl => exact (hok.poll hl).1
  | defer hl hm hc => exact hok.defer hl hm hc
  | spawn hl => exact hok.spawn hl
  | resume hl =>
    have hp := hok.loop
    rw [hl] at hp
    exact hok.setLoop (by simp [hl]) (by simp [hl]) hp.1
  | persist hl => exact hok.spawnPersistent hl
  | join hw _ hj => exact hok.join hw hj
  | @begin index hj =>
    have hp : PhaseOk b p.run.dispatcher index .running := trivial
    exact hok.moveJob hj JobPhase.noConfusion (hr _) hp rfl
  | advance hj ha =>
    obtain ⟨hm, hp⟩ := ha.spec hok hj
    exact hok.moveJob hj ha.between.2.1 hm hp rfl
  | @send index a hj =>
    have hp : PhaseOk b p.run.dispatcher index .finished := (hok.phase index _ hj).2.2
    dsimp only
    split_ifs
    · exact hok.moveJob hj JobPhase.noConfusion (hr _) hp rfl
    · exact hok.moveJob hj JobPhase.noConfusion (hr _) hp rfl
  | receive =>
    rw [collect_run]
    have hp := hok.loop
    refine { hok with loop := ?_ }
    change LoopPhaseOk g _ p.run.loop
    cases hl : p.run.loop <;> rw [hl] at hp <;> exact hp

section

variable (htally : Tally g b p)
include htally

lemma Tally.moveJob (hjo : p.run.jobs index = some old) (hol : old ≠ .finished)
    (hp : phase ≠ .finished) (hq : phase ≠ .queued)
    (hj : p'.run.jobs = update p.run.jobs index (some phase)) (hr : p'.run.results = p.run.results)
    (ha : p'.actions = p.actions) (hrc : p'.receiver = p.receiver) (hs : p'.status = p.status)
    (hpr : p'.permits ⊆ insert index p.permits) : Tally g b p' where
  quiet := hr ▸ htally.quiet
  once := ha ▸ hr ▸ htally.once
  sent o := by
    rw [ha, hr, htally.sent o, hj]
    by_cases heq : o = index
    · subst heq
      rw [update_self, hjo]
      simp [hol, hp]
    · rw [update_of_ne heq]
  receiver := by
    rw [hrc, hs, ha]
    exact htally.receiver
  permits := by
    intro o ho
    rw [hj]
    by_cases heq : o = index
    · subst heq
      exact ⟨phase, update_self .., hq, hp⟩
    · rw [update_of_ne heq]
      exact htally.permits o (Finset.mem_of_mem_insert_of_ne (hpr ho) heq)

lemma Tally.spawn (hr : run.results = p.run.results)
    (hj : ∀ index, run.jobs index = p.run.jobs index ∨
      p.run.jobs index = none ∧ run.jobs index = some .queued) :
    Tally g b { p with run := run } where
  quiet := hr ▸ htally.quiet
  once := hr ▸ htally.once
  sent index := by
    change index ∈ (p.actions ++ run.results).map nodeIndex ↔ run.jobs index = _
    rw [hr, htally.sent index]
    rcases hj index with hs | ⟨hn, hq⟩
    · rw [hs]
    · simp [hn, hq]
  receiver := htally.receiver
  permits := by
    intro index hi
    obtain ⟨phase, hp, hrs⟩ := htally.permits index hi
    rcases hj index with hs | ⟨hn, _⟩
    · exact ⟨phase, hs.trans hp, hrs⟩
    · rw [hn] at hp
      cases hp

variable (hok : LoopOk g b l p.run)

include hok

lemma Tally.perm (hl : p.actions.length = g.nodes.length) :
    (p.actions.map nodeIndex).Perm (range g.nodes.length) := by
  have hn : (p.actions.map nodeIndex).Nodup := by
    have ho := htally.once
    rw [map_append] at ho
    exact (nodup_append.mp ho).1
  have hs : p.actions.map nodeIndex ⊆ range g.nodes.length := by
    intro index hi
    have hf : p.run.jobs index = some .finished := by
      rw [← htally.sent index, map_append]
      exact mem_append_left _ hi
    exact mem_range.mpr (hok.inGraph index (hok.spawned index (by simp [hf])))
  refine (subperm_of_subset hn hs).perm_of_length_le ?_
  simp [hl]

lemma Tally.send {a : Action} (hj : p.run.jobs index = some (.completed a)) :
    Tally g b { p with
      run := if p.receiver = .listening then
          { p.run.setJob index .finished with results := p.run.results ++ [a] }
        else { p.run.setJob index .finished with results := p.run.results }
      permits := p.permits.erase index } := by
  have hlst : p.receiver = .listening := by
    refine htally.receiver.elim And.left (fun hd => ?_)
    have hp := htally.perm hok hd.2.2
    have hi := hok.inGraph index (hok.spawned index (by simp [hj]))
    have hm := hp.mem_iff.mpr (mem_range.mpr hi)
    have hf := (htally.sent index).mp (by
      rw [map_append]
      exact mem_append_left _ hm)
    simp [hj] at hf
  obtain ⟨hi, hq, _⟩ := hok.phase index _ hj
  rw [if_pos hlst]
  have hli : (p.actions ++ (p.run.results ++ [a])).map nodeIndex =
      (p.actions ++ p.run.results).map nodeIndex ++ [index] := by
    rw [← append_assoc, map_append, map_singleton, hi]
  have hn : index ∉ (p.actions ++ p.run.results).map nodeIndex := by
    rw [htally.sent index, hj]
    simp
  exact {
    quiet := by
      intro o ho
      rcases mem_append.mp ho with hol | hl
      · exact htally.quiet o hol
      · rw [mem_singleton.mp hl]
        exact hq
    once := by
      change ((p.actions ++ (p.run.results ++ [a])).map nodeIndex).Nodup
      rw [hli]
      exact nodup_append.mpr ⟨htally.once, nodup_singleton _, by
        intro o ho last hl heq
        rw [mem_singleton.mp hl] at heq
        exact hn (heq ▸ ho)⟩
    sent := by
      intro o
      change o ∈ (p.actions ++ (p.run.results ++ [a])).map nodeIndex ↔
        update p.run.jobs index (some .finished) o = some .finished
      rw [hli, mem_append, htally.sent o, mem_singleton]
      by_cases heq : o = index
      · subst heq
        simp
      · rw [update_of_ne heq]
        simp [heq]
    receiver := htally.receiver
    permits := by
      intro o ho
      obtain ⟨hne, hm⟩ := Finset.mem_erase.mp ho
      change ∃ phase, update p.run.jobs index (some .finished) o = some phase ∧ _
      rw [update_of_ne hne]
      exact htally.permits o hm }

lemma Tally.receive {a : Action} {rs : List Action}
    (hr : p.receiver = .listening) (hrs : p.run.results = a :: rs) :
    Tally g b (collect g { p with run := { p.run with results := rs } } a) := by
  have hls : p.actions ++ [a] ++ rs = p.actions ++ p.run.results := by
    rw [hrs, append_assoc, singleton_append]
  have hp : p.status = .pending ∧ p.actions.length < g.nodes.length := by
    rcases htally.receiver with ⟨_, hp⟩ | ⟨hd, _⟩
    · exact hp
    · rw [hr] at hd
      cases hd
  have hq : ∀ o ∈ rs, shouldAbortPipeline b o = false :=
    fun o ho => htally.quiet o (hrs ▸ mem_cons_of_mem _ ho)
  have hon := htally.once
  have hs := htally.sent
  rw [← hls] at hon hs
  unfold collect
  simp only [hok.abort, hok.cancel, false_eq_true, if_false]
  by_cases hl : (p.actions ++ [a]).length = g.nodes.length
  · rw [if_pos hl]
    exact ⟨hq, hon, hs, .inr ⟨rfl, rfl, hl⟩, htally.permits⟩
  · rw [if_neg hl]
    refine ⟨hq, hon, hs, .inl ⟨hr, hp.1, ?_⟩, htally.permits⟩
    rw [length_append, length_singleton] at hl ⊢
    omega

lemma Tally.quietStep (h : QuietStep g b p p') : Tally g b p' := by
  cases h with
  | enter | leave | resume | defer | join | poll => exact htally.spawn rfl (fun _ => .inl rfl)
  | @spawn index i hl =>
    refine htally.spawn rfl (fun o => ?_)
    have hp := hok.loop
    rw [hl] at hp
    by_cases heq : o = index
    · subst heq
      exact .inr ⟨hp.2.2.1, update_self ..⟩
    · exact .inl (update_of_ne heq _ _)
  | persist hl =>
    refine htally.spawn rfl (fun o => ?_)
    by_cases hm : o ∈ p.run.persistentIndices
    · refine .inr ⟨(hok.persistent o hm).2.resolve_left (by simp [hl]), if_pos hm⟩
    · exact .inl (if_neg hm)
  | begin hj =>
    refine htally.moveJob hj JobPhase.noConfusion JobPhase.noConfusion JobPhase.noConfusion rfl
      rfl rfl rfl rfl ?_
    dsimp only
    split_ifs
    · exact Finset.Subset.refl _
    · exact Finset.subset_insert _ _
  | advance hj ha =>
    obtain ⟨_, ho, hq, hf⟩ := ha.between
    exact htally.moveJob hj ho hf hq rfl rfl rfl rfl rfl (Finset.subset_insert _ _)
  | send hj => exact htally.send hok hj
  | receive hr hrs => exact htally.receive hok hr hrs

end

def phaseWeight : Option JobPhase → Nat
  | none => 10
  | some .queued => 9
  | some .running => 8
  | some (.ran _) => 7
  | some (.sending _) => 6
  | some (.signalled _) => 5
  | some (.removed _) => 4
  | some (.completed _) => 3
  | some .finished => 1
  | some .killed => 0

def jobsWeight (graph : ActionGraph) (jobs : Nat → Option JobPhase) : Nat :=
  ∑ index ∈ Finset.range graph.nodes.length, phaseWeight (jobs index)

def turnWeight (limit : Nat) : Nat := 2 * limit + 6

def loopWeight (limit : Nat) (run : PipelineRun) : Nat :=
  match run.loop with
  | .top => turnWeight limit
  | .calling => callWeight limit run.dispatcher.next + 3
  | .dispatching _ => 2 * turnWeight limit + 3
  | .joining => 0
  | .exhausting i => if i then turnWeight limit + 1 else 1
  | .returned => 0

def handleCount (run : PipelineRun) : Nat :=
  run.handles.card + if run.loop = .returned then 0 else run.persistentIndices.length

def weight (graph : ActionGraph) (limit : Nat) (p : InternalRun) : Nat :=
  (2 * turnWeight limit + 4) * (graph.nodes.length - p.run.dispatcher.visited.card) +
    (turnWeight limit + 1) * handleCount p.run + loopWeight limit p.run +
    jobsWeight graph p.run.jobs + p.run.results.length

lemma jobsWeight_update {j : Nat → Option JobPhase} {s : Nat} {old : Option JobPhase}
    (hi : index < g.nodes.length) (hj : j index = old)
    (hph : phaseWeight (some phase) + s ≤ phaseWeight old) :
    jobsWeight g (update j index (some phase)) + s ≤ jobsWeight g j := by
  have hm : index ∈ Finset.range g.nodes.length := Finset.mem_range.mpr hi
  have hr : ∑ o ∈ (Finset.range g.nodes.length).erase index,
      phaseWeight (update j index (some phase) o) =
        ∑ o ∈ (Finset.range g.nodes.length).erase index, phaseWeight (j o) := by
    refine Finset.sum_congr rfl (fun o ho => ?_)
    rw [update_of_ne (Finset.ne_of_mem_erase ho)]
  unfold jobsWeight
  rw [← Finset.add_sum_erase _ _ hm, ← Finset.add_sum_erase _ (fun i => phaseWeight (j i)) hm,
    hr, update_self, hj]
  omega

lemma weight_dispatched (hi : index < g.nodes.length) {v : Finset Nat}
    (hs : ∀ o ∈ v, o < g.nodes.length) (hn : index ∉ v) (pr : Nat) :
    pr * (g.nodes.length - (insert index v).card) + pr = pr * (g.nodes.length - v.card) := by
  have hc : (insert index v).card ≤ g.nodes.length := by
    rw [← Finset.card_range g.nodes.length]
    refine Finset.card_le_card (fun o ho => Finset.mem_range.mpr ?_)
    rcases Finset.mem_insert.mp ho with rfl | hol
    · exact hi
    · exact hs o hol
  rw [Finset.card_insert_of_notMem hn] at hc ⊢
  rw [← Nat.mul_succ]
  congr 1
  omega

lemma weight_lt_of_jobs (hv : p'.run.dispatcher.visited = p.run.dispatcher.visited)
    (hn : p'.run.dispatcher.next = p.run.dispatcher.next)
    (hh : p'.run.handles = p.run.handles) (hl : p'.run.loop = p.run.loop)
    (hp : p'.run.persistentIndices = p.run.persistentIndices)
    (hls : jobsWeight g p'.run.jobs + p'.run.results.length <
      jobsWeight g p.run.jobs + p.run.results.length) : weight g l p' < weight g l p := by
  unfold weight loopWeight handleCount
  rw [hv, hn, hh, hl, hp]
  omega

lemma QuietStep.weight_lt (hok : LoopOk g b l p.run) (h : QuietStep g b p p') :
    weight g l p' < weight g l p := by
  have hp := hok.loop
  have hg : ∀ index phase, p.run.jobs index = some phase → index < g.nodes.length :=
    fun index phase hj => hok.inGraph index (hok.spawned index (by simp [hj]))
  cases h with
  | enter hl hq =>
    rw [hl] at hp
    have hid : p.run.dispatcher.next = .idle := hp
    simp only [weight, loopWeight, handleCount, hl, hid, callWeight, turnWeight, reduceCtorEq,
      if_false]
    omega
  | leave hl hdn =>
    simp only [weight, loopWeight, handleCount, hl, turnWeight, reduceCtorEq, if_false,
      false_eq_true]
    omega
  | poll hl =>
    cases (hok.poll hl).2 with
    | goesOn hpl hv | joins hpl hv =>
      simp only [weight, loopWeight, handleCount, hpl, hl, hv, reduceCtorEq, if_false]
      omega
    | dispatches index hi hnw hpl hv =>
      have hpd := weight_dispatched hi hok.inGraph hnw (2 * turnWeight l + 4)
      simp only [weight, loopWeight, handleCount, hpl, hl, hv, reduceCtorEq, if_false]
      omega
  | defer hl hm hcmp =>
    simp only [weight, loopWeight, handleCount, hl, hm.visited, reduceCtorEq, if_false,
      length_append, length_singleton, ← add_assoc, Nat.mul_succ]
    omega
  | @spawn index i hl =>
    rw [hl] at hp
    have hjb : jobsWeight g (update p.run.jobs index (some .queued)) + 1 ≤
        jobsWeight g p.run.jobs :=
      jobsWeight_update (hok.inGraph index hp.2.1) hp.2.2.1 le_rfl
    have hc := Finset.card_insert_le index p.run.handles
    have hh := Nat.mul_le_mul_left (turnWeight l + 1)
      (Nat.add_le_add_right hc p.run.persistentIndices.length)
    cases i <;>
      simp only [weight, loopWeight, handleCount, setJob, hl, reduceCtorEq, if_false,
        if_true, false_eq_true, Nat.add_right_comm _ 1, Nat.mul_succ] at hh ⊢ <;>
      omega
  | resume hl =>
    simp only [weight, loopWeight, handleCount, hl, reduceCtorEq, if_false, if_true]
    omega
  | persist hl =>
    have hjb : jobsWeight g p.run.spawnPersistent.jobs ≤ jobsWeight g p.run.jobs := by
      refine Finset.sum_le_sum (fun index _ => ?_)
      by_cases hme : index ∈ p.run.persistentIndices
      · have hn := (hok.persistent index hme).2.resolve_left (by simp [hl])
        have hq : p.run.spawnPersistent.jobs index = some .queued := if_pos hme
        rw [hn, hq]
        decide
      · exact (congrArg phaseWeight (if_neg hme)).le
    have hc : (p.run.handles ∪ p.run.persistentIndices.toFinset).card ≤
        p.run.handles.card + p.run.persistentIndices.length :=
      (Finset.card_union_le _ _).trans
        (Nat.add_le_add_left (toFinset_card_le p.run.persistentIndices) _)
    have hh := Nat.mul_le_mul_left (turnWeight l + 1) hc
    simp only [weight, loopWeight, handleCount, spawnPersistent, hl, reduceCtorEq,
      if_false, if_true, false_eq_true, add_zero] at hjb ⊢
    omega
  | @join index hw hhd hj =>
    have hc := Finset.card_erase_add_one hhd
    have hpd : (turnWeight l + 1) *
          ((p.run.handles.erase index).card + p.run.persistentIndices.length) + (turnWeight l + 1) =
        (turnWeight l + 1) * (p.run.handles.card + p.run.persistentIndices.length) := by
      rw [← hc, Nat.add_right_comm, Nat.mul_succ]
    cases hl : p.run.loop with
    | joining =>
      simp only [weight, loopWeight, handleCount, hl, reduceCtorEq, if_false, if_true]
      omega
    | exhausting i =>
      simp only [weight, loopWeight, handleCount, hl, reduceCtorEq, if_false]
      omega
    | _ =>
      rw [hl] at hw
      cases hw
  | @begin index hj =>
    have hjb : jobsWeight g (update p.run.jobs index (some .running)) + 1 ≤
        jobsWeight g p.run.jobs := jobsWeight_update (hg index _ hj) hj le_rfl
    exact weight_lt_of_jobs rfl rfl rfl rfl rfl (Nat.add_lt_add_right hjb _)
  | @advance index old phase d failed hj ha =>
    have hjb : jobsWeight g (update p.run.jobs index (some phase)) + 1 ≤
        jobsWeight g p.run.jobs := by
      refine jobsWeight_update (hg index _ hj) hj ?_
      cases ha <;> simp [phaseWeight]
    have hm := (ha.spec hok hj).1
    exact weight_lt_of_jobs hm.visited hm.next rfl rfl rfl (Nat.add_lt_add_right hjb _)
  | @send index a hj =>
    have hjb : jobsWeight g (update p.run.jobs index (some .finished)) + 2 ≤
        jobsWeight g p.run.jobs := jobsWeight_update (hg index _ hj) hj le_rfl
    dsimp only
    split_ifs
    · refine weight_lt_of_jobs rfl rfl rfl rfl rfl ?_
      simp only [setJob, length_append, length_singleton]
      omega
    · refine weight_lt_of_jobs rfl rfl rfl rfl rfl ?_
      simp only [setJob]
      omega
  | receive hrcv hr =>
    refine weight_lt_of_jobs ?_ ?_ ?_ ?_ ?_ ?_ <;> rw [collect_run]
    rw [hr, length_cons]
    exact Nat.lt_succ_self _

def Enabled (graph : ActionGraph) (bail : Bool) (concurrency : Nat) (p : InternalRun) : Prop :=
  ∃ event, Quiet graph bail p event ∧ p.step graph bail concurrency event ≠ none

def passing : ActionRunEnv where
  emit _ := true
  hasProject _ := true
  outcome := { result := .ok .passed }

lemma passing_quiet (b : Bool) (n : ActionNode) (index : Nat) :
    shouldAbortPipeline b (jobAction passing n index) = false := by
  cases n <;> cases b <;>
    simp [jobAction, runAction, runOperation, passing, operationProject, operationEvents,
      performOperation, Action.new, Action.conclude, Action.finish, Action.hasFailed,
      shouldAbortPipeline, Action.shouldAbort, Action.shouldBail, getLastExecution]

section

variable (hok : LoopOk g b l p.run)
include hok

lemma LoopOk.getElem? (hv : index ∈ p.run.dispatcher.visited) : ∃ n, g.nodes[index]? = some n :=
  ⟨_, getElem?_eq_getElem (hok.inGraph index hv)⟩

lemma enabled_of_job (hj : p.run.jobs index = some phase)
    (hq : phase ≠ .queued) (hf : phase ≠ .finished) : Enabled g b c p := by
  have hv := hok.spawned index (by simp [hj])
  have hp := hok.phase index phase hj
  cases phase with
  | queued => exact absurd rfl hq
  | running =>
    obtain ⟨n, hn⟩ := hok.getElem? hv
    refine ⟨.ran index passing, fun _ _ => passing_quiet _ _ _, ?_⟩
    simp [InternalRun.step, PipelineRun.step, PipelineRun.endRun, hj, hn]
  | ran a => exact ⟨.settle index, trivial, by simp [InternalRun.step, PipelineRun.step, hj]⟩
  | sending a =>
    exact ⟨.signal index, trivial, by simp [InternalRun.step, PipelineRun.step, hj]⟩
  | signalled a =>
    refine ⟨.removeRunning index, trivial, ?_⟩
    simp [InternalRun.step, PipelineRun.step, JobDispatcher.step, hj, hv]
  | removed a =>
    refine ⟨.insertCompleted index, trivial, ?_⟩
    simp [InternalRun.step, PipelineRun.step, JobDispatcher.step, hj, hp.2.2]
  | completed a =>
    exact ⟨.send index, trivial, by simp [InternalRun.step, PipelineRun.step, hj]⟩
  | finished => exact absurd rfl hf
  | killed => exact hp.elim

lemma enabled_of_queued (htally : Tally g b p)
    (hcnc : 0 < c) (hj : p.run.jobs index = some .queued) : Enabled g b c p := by
  by_cases hp : p.permits = ∅
  · obtain ⟨n, hn⟩ := hok.getElem? (hok.spawned index (by simp [hj]))
    refine ⟨.begin index, trivial, ?_⟩
    have hfr : ¬ (InternalRun.needsPermit g index ∧ c ≤ p.permits.card) := by
      rw [hp, Finset.card_empty]
      omega
    simp only [InternalRun.step, if_neg hfr, PipelineRun.step, if_pos hj, PipelineRun.beginJob,
      hn, hok.abort, hok.cancel]
    simp
  · obtain ⟨h, hh⟩ := Finset.nonempty_iff_ne_empty.mpr hp
    obtain ⟨phase, hph, hq, hf⟩ := htally.permits h hh
    exact enabled_of_job hok hph hq hf

lemma enabled_of_loop (hjb : ∀ index phase, p.run.jobs index = some phase → phase = .finished)
    (hr : p.run.loop ≠ .returned) : Enabled g b c p := by
  have hp := hok.loop
  have hjn : p.run.loop.isWaiting → p.run.handles ≠ ∅ →
      Enabled g b c p := by
    intro hw hh
    obtain ⟨index, hhd⟩ := Finset.nonempty_iff_ne_empty.mpr hh
    obtain ⟨phase, hj⟩ := ne_none_iff_exists'.mp (hok.handles index hhd)
    have hf := hjb index phase hj
    subst hf
    refine ⟨.join index, trivial, ?_⟩
    simp [InternalRun.step, PipelineRun.step, hw, hhd, hj]
  cases hl : p.run.loop with
  | top =>
    refine ⟨.loop, trivial, ?_⟩
    simp only [InternalRun.step, PipelineRun.step, PipelineRun.stepLoop, hl]
    split_ifs <;> simp
  | calling =>
    exact ⟨.loop, trivial, by
      simp [InternalRun.step, PipelineRun.step, PipelineRun.stepLoop, hl]⟩
  | dispatching index =>
    rw [hl] at hp
    obtain ⟨n, hn⟩ := hok.getElem? hp.2.1
    refine ⟨.loop, trivial, ?_⟩
    simp only [InternalRun.step, PipelineRun.step, PipelineRun.stepLoop, hl,
      PipelineRun.dispatchNode, hn]
    split_ifs
    · simp [PipelineRun.markCompleted, JobDispatcher.step, hp.2.1]
    · simp
    · simp
  | joining =>
    rw [hl] at hp
    exact hjn (by rw [hl]; rfl) hp.2
  | exhausting i =>
    by_cases hh : p.run.handles = ∅
    · refine ⟨.loop, trivial, ?_⟩
      simp only [InternalRun.step, PipelineRun.step, PipelineRun.stepLoop, hl, hh,
        ne_eq, not_true_eq_false, if_false]
      split_ifs <;> simp
    · exact hjn (by rw [hl]; rfl) hh
  | returned => exact absurd hl hr

lemma enabled_of_pending (htally : Tally g b p) (hc : 0 < c) (hst : p.status ≠ .completed) :
    Enabled g b c p := by
  obtain ⟨hrc, _, hlen⟩ := htally.receiver.resolve_right (fun h => hst h.2.1)
  cases hrs : p.run.results with
  | cons a rs =>
    refine ⟨.receive, trivial, ?_⟩
    simp [InternalRun.step, InternalRun.receive, PipelineRun.step, hrc, hrs]
  | nil =>
    by_contra hs
    have hjb : ∀ index phase, p.run.jobs index = some phase → phase = .finished := by
      intro index phase hj
      by_contra hf
      by_cases hq : phase = .queued
      · exact hs (enabled_of_queued hok htally hc (hq ▸ hj))
      · exact hs (enabled_of_job hok hj hq hf)
    have hr : p.run.loop = .returned := by
      by_contra hlp
      exact hs (enabled_of_loop hok hjb hlp)
    have hp := hok.loop
    rw [hr] at hp
    obtain ⟨_, hv, hpr⟩ := hp
    -- every node has a job that has finished, so no result is missing
    have ha : range g.nodes.length ⊆ p.actions.map nodeIndex := by
      intro index hi
      have hsp : p.run.jobs index ≠ none := by
        rcases hok.accounted index (hv index (mem_range.mp hi)) with
          hj | hdf | hd
        · exact hj
        · exact hpr index hdf
        · rw [hr] at hd
          cases hd
      obtain ⟨phase, hj⟩ := ne_none_iff_exists'.mp hsp
      have hsn := (htally.sent index).mpr (hjb index phase hj ▸ hj)
      rwa [hrs, append_nil] at hsn
    have hl := (subperm_of_subset nodup_range ha).length_le
    rw [length_range, length_map] at hl
    omega

end

lemma quietOk_new {order : List Nat} (hn : g.nodes ≠ []) (ht : order.Perm (range g.nodes.length)) :
    LoopOk g b (JobDispatcher.new g order).todo.length
        (InternalRun.new g order).run ∧
      Tally g b (InternalRun.new g order) := by
  have hm : ∀ index, index ∈ order ↔ index < g.nodes.length :=
    fun index => ht.mem_iff.trans mem_range
  have hl : g.nodes.length ≠ 0 := fun heq => hn (length_eq_zero_iff.mp heq)
  have hnw : InternalRun.new g order = { run := PipelineRun.new g order } := if_neg hl
  rw [hnw]
  constructor
  · exact {
      safe := safe_new g order
      queued := queued_new (fun index hi => (hm index).mpr hi)
      bounded := bounded_new (fun index hi => (hm index).mp hi)
      abort := rfl
      cancel := rfl
      inGraph := fun index hi => absurd hi (Finset.notMem_empty index)
      spawned := fun index hj => absurd rfl hj
      phase := fun index phase hj => (nomatch hj)
      handled := fun index phase hj => (nomatch hj)
      handles := fun index hi => absurd hi (Finset.notMem_empty index)
      accounted := fun index hi => absurd hi (Finset.notMem_empty index)
      persistent := fun index hi => absurd hi not_mem_nil
      loop := rfl }
  · exact {
      quiet := fun a ha => absurd ha not_mem_nil
      once := nodup_nil
      sent := fun index => by simp [PipelineRun.new]
      receiver := .inl ⟨rfl, rfl, Nat.pos_of_ne_zero hl⟩
      permits := fun index hi => absurd hi (Finset.notMem_empty index) }

/-- In every schedule without a signal or an action that asks to abort, the pipeline takes a limited
number of steps, never has two results of one node, and in the end has one of every node. -/
theorem quiet_pipeline_completes (graph : ActionGraph) (bail : Bool) (concurrency : Nat)
    (topoIndices : List Nat) (hnodes : graph.nodes ≠ []) (hconcurrency : 0 < concurrency)
    (htopo : topoIndices.Perm (range graph.nodes.length)) :
    ∃ bound, ∀ (events : List PipelineRunEvent) (p : InternalRun),
      Along (step graph bail concurrency) (Quiet graph bail)
        (new graph topoIndices) events →
      exec (step graph bail concurrency) (new graph topoIndices) events = some p →
      events.length ≤ bound ∧ (p.actions.map Action.nodeIndex).Nodup ∧
      (p.status = .completed ↔ p.actions.length = graph.nodes.length) ∧
      ((∀ event, Quiet graph bail p event → p.step graph bail concurrency event = none) →
        p.status = .completed ∧
          (p.actions.map Action.nodeIndex).Perm (range graph.nodes.length)) := by
  let l := (JobDispatcher.new graph topoIndices).todo.length
  have hst : ∀ p event p', LoopOk graph bail l p.run ∧ Tally graph bail p →
      Quiet graph bail p event → p.step graph bail concurrency event = some p' →
      LoopOk graph bail l p'.run ∧ Tally graph bail p' := by
    intro p event p' ⟨hok, htally⟩ hq hst
    have hm := quietStep_of_step hok htally hq hst
    exact ⟨hok.quietStep hm, htally.quietStep hok hm⟩
  have hw : ∀ p event p', LoopOk graph bail l p.run ∧ Tally graph bail p →
      Quiet graph bail p event → p.step graph bail concurrency event = some p' →
      weight graph l p' < weight graph l p := by
    intro p event p' ⟨hok, htally⟩ hq hst
    exact (quietStep_of_step hok htally hq hst).weight_lt hok
  refine ⟨weight graph l (InternalRun.new graph topoIndices), fun events p ha hr => ?_⟩
  have hstr : LoopOk graph bail l (InternalRun.new graph topoIndices).run ∧
      Tally graph bail (InternalRun.new graph topoIndices) := quietOk_new hnodes htopo
  obtain ⟨hok, htally⟩ := exec_invariant_along hst hstr ha hr
  have hlen := exec_length_le_along hst hw hstr ha hr
  have hi : p.status = .completed ↔ p.actions.length = graph.nodes.length := by
    rcases htally.receiver with ⟨_, hs, hl⟩ | ⟨_, hs, heq⟩
    · rw [hs]
      exact iff_of_false ActionPipelineStatus.noConfusion hl.ne
    · exact iff_of_true hs heq
  refine ⟨by omega, ?_, hi, fun hstc => ?_⟩
  · have ho := htally.once
    rw [map_append] at ho
    exact (nodup_append.mp ho).1
  · have hs : p.status = .completed := by
      by_contra hp
      obtain ⟨event, hq, hen⟩ := enabled_of_pending hok htally hconcurrency hp
      exact hen (hstc event hq)
    exact ⟨hs, htally.perm hok (hi.mp hs)⟩

def soleSync : ActionGraph where
  nodes := [.syncWorkspace]
  edges := []
  edges_lt := by decide
  acyclic := ActionGraph.empty.acyclic

/-- A persistent task that depends on a task, which depends on the sync of the workspace. -/
def syncBuildServe : ActionGraph where
  nodes := [.syncWorkspace, .runTask { target := Target.new "lib" "build" },
    .runTask { target := Target.new "app" "serve", persistent := true }]
  edges := [(1, 0), (2, 1)]
  edges_lt := by decide
  acyclic := by
    apply acyclic_of_rank id
    intro source target h
    simp only [mem_pair, Prod.mk.injEq] at h
    dsimp only [id]
    omega

/-- The events of one job that passes, from its permit to the receipt of its result. -/
def jobEvents (index : Nat) : List PipelineRunEvent :=
  [.begin index, .ran index passing, .settle index, .signal index, .removeRunning index,
    .insertCompleted index, .send index, .receive]

/-- The first two jobs in order, and the persistent one once both have been joined. -/
def syncBuildServeEvents : List PipelineRunEvent :=
  replicate 4 .loop ++ jobEvents 0 ++ replicate 5 .loop ++ jobEvents 1 ++
    replicate 7 .loop ++ [.join 0, .join 1, .loop] ++ jobEvents 2

theorem syncBuildServe_completes :
    ∃ p, exec (step syncBuildServe false 1) (new syncBuildServe [0, 1, 2])
        syncBuildServeEvents = some p ∧ p.status = .completed ∧
      p.actions.map Action.nodeIndex = [0, 1, 2] ∧
      (p.actions.map Action.nodeIndex).Nodup ∧
      (p.status = .completed ↔ p.actions.length = syncBuildServe.nodes.length) := by
  obtain ⟨bound, hc⟩ := quiet_pipeline_completes syncBuildServe false 1 [0, 1, 2] (by decide)
    (by decide) (by decide)
  have ha : Along (step syncBuildServe false 1) (Quiet syncBuildServe false)
      (new syncBuildServe [0, 1, 2]) syncBuildServeEvents := by
    apply Along.of_forall
    intro event he p
    have hev : event = .loop ∨ (∃ index, event = .join index) ∨
        ∃ index, event ∈ jobEvents index := by
      simp only [syncBuildServeEvents, mem_append, mem_replicate, mem_cons, not_mem_nil] at he
      grind
    obtain rfl | ⟨index, rfl⟩ | ⟨index, hj⟩ := hev
    · trivial
    · trivial
    · simp only [jobEvents, mem_cons, not_mem_nil] at hj
      obtain rfl | rfl | rfl | rfl | rfl | rfl | rfl | rfl | ⟨⟨⟩⟩ := hj <;>
        first | trivial | exact fun node _ => passing_quiet false node index
  obtain ⟨_, hn, hi, _⟩ := hc syncBuildServeEvents _ ha rfl
  exact ⟨_, rfl, rfl, rfl, hn, hi⟩

/-- Without any actions the pipeline returns as it is, and without any permits its first job
waits forever. -/
theorem idle_pipeline_stays_pending :
    ((InternalRun.new ActionGraph.empty []).status = .pending ∧
      ∀ event, Quiet ActionGraph.empty false (InternalRun.new ActionGraph.empty []) event →
        (InternalRun.new ActionGraph.empty []).step ActionGraph.empty false 1 event = none) ∧
    ∃ events p, exec (InternalRun.step soleSync false 0) (InternalRun.new soleSync [0]) events =
        some p ∧ p.status = .pending ∧ p.actions = [] ∧
      ∀ event, Quiet soleSync false p event → p.step soleSync false 0 event = none := by
  refine ⟨⟨rfl, fun event hq => ?_⟩,
    [.loop, .loop, .loop, .loop, .loop], _, rfl, rfl, rfl, fun event hq => ?_⟩
  · cases event with
    | cancel => exact hq.elim
    | _ => rfl
  · cases event with
    | cancel => exact hq.elim
    | join index | begin index | ran index env | settle index | signal index
    | removeRunning index | insertCompleted index | send index | kill index =>
      cases index <;> rfl
    | _ => rfl

end Moon.Proofs
