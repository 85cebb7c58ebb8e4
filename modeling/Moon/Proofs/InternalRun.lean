import Moon.InternalRun
import Moon.Proofs.JobDispatcher

/-!
# The steps of a quiet pipeline

Until a signal arrives or an action asks to abort, every node is left to the dispatcher, deferred,
on its way as a job, or its result was sent.
-/

namespace Moon.Proofs

open JobDispatcher List Function Option

section

variable {g : ActionGraph} {l : Nat} {d d' : JobDispatcher}

def NextState.todo : NextState → List (Nat × Nat)
  | .scanning _ _ todo | .checking _ _ todo _ _ => todo
  | .idle | .inserting _ _ => []

structure Bounded (graph : ActionGraph) (limit : Nat) (d : JobDispatcher) : Prop where
  todo : ∀ entry ∈ d.todo, entry.2 < graph.nodes.length
  length : d.todo.length ≤ limit
  next : ∀ entry ∈ NextState.todo d.next, entry.2 < graph.nodes.length

lemma bounded_new {order : List Nat} (ht : ∀ index ∈ order, index < g.nodes.length) :
    Bounded g (JobDispatcher.new g order).todo.length (JobDispatcher.new g order) where
  todo := by
    intro e hen
    obtain ⟨group, hg, hm⟩ := mem_flatMap.mp hen
    obtain ⟨priority, _, rfl⟩ := mem_map.mp hg
    obtain ⟨index, hi, rfl⟩ := mem_map.mp hm
    exact ht index (mem_filter.mp hi).1
  length := le_rfl
  next := by
    intro e hen
    cases hen

lemma todo_prune_sublist (d : JobDispatcher) (c : Finset Nat) :
    (d.prune c).todo.Sublist d.todo := by
  change List.Sublist (flatMap _ _) (flatMap _ _)
  simp only [JobDispatcher.prune]
  induction d.groups with
  | nil => exact List.Sublist.slnil
  | cons gr groups ih =>
    have hg : ((gr.2.filter (fun index => index ∉ c)).map (fun index => (gr.1, index))).Sublist
          (gr.2.map (fun index => (gr.1, index))) :=
      filter_sublist.map _
    simp only [map_cons, filter_cons, flatMap_cons]
    split_ifs
    · exact hg.append ih
    · exact ih.trans (sublist_append_right _ _)

lemma Bounded.pollStep (hb : Bounded g l d) (h : PollStep g d d') : Bounded g l d' := by
  have hn' := hb.next
  cases h with
  | call hn => exact ⟨hb.todo, hb.length, hb.todo⟩
  | finish hn =>
    have hs := todo_prune_sublist d
    refine ⟨fun e hen => hb.todo e ((hs _).subset hen), ?_, fun e hen => (nomatch hen)⟩
    exact (hs _).length_le.trans hb.length
  | pass hn | candidate hn =>
    rw [hn] at hn'
    exact ⟨hb.todo, hb.length, fun e hen => hn' e (mem_cons_of_mem _ hen)⟩
  | free | claim | insert =>
    exact ⟨hb.todo, hb.length, fun e hen => (nomatch hen)⟩
  | defer hn _ =>
    rw [hn] at hn'
    exact ⟨hb.todo, hb.length, hn'⟩

def callWeight (limit : Nat) : NextState → Nat
  | .idle => 2 * limit + 2
  | state => NextState.remaining state

inductive PollOutcome (graph : ActionGraph) (limit : Nat) (d d' : JobDispatcher) : Prop
  | goesOn (hnext : d'.next ≠ .idle) (hreturned : d'.returned = d.returned)
      (hvisited : d'.visited = d.visited)
      (hweight : callWeight limit d'.next < callWeight limit d.next)
  | nothing (hnext : d'.next = .idle) (hreturned : d'.returned = none :: d.returned)
      (hvisited : d'.visited = d.visited)
  | node (index : Nat) (hindex : index < graph.nodes.length) (hnew : index ∉ d.visited)
      (hnext : d'.next = .idle) (hreturned : d'.returned = some index :: d.returned)
      (hvisited : d'.visited = insert index d.visited)

lemma pollOutcome_of_step (hsf : Safe g d) (hb : Bounded g l d) (h : PollStep g d d') :
    d'.completing = d.completing ∧ d'.completedJobs = d.completedJobs ∧ PollOutcome g l d d' := by
  have hn' := hb.next
  have hs' := hsf.next
  have hlen := hb.length
  cases h with
  | call hn | defer hn _ | claim hn _ =>
    refine ⟨rfl, rfl, .goesOn NextState.noConfusion rfl rfl ?_⟩
    simp only [hn, callWeight, NextState.remaining]
    omega
  | finish hn => exact ⟨rfl, rfl, .nothing rfl rfl rfl⟩
  | pass hn | candidate hn =>
    refine ⟨rfl, rfl, .goesOn NextState.noConfusion rfl rfl ?_⟩
    simp only [hn, callWeight, NextState.remaining, length_cons]
    omega
  | @free c t later gr index f todo hn hfn hid =>
    rw [hn] at hn'
    have hs : index < g.nodes.length := hn' (gr, index) mem_cons_self
    have hf := findApplicableIndex_lt g d.visited c gr (g.nodes.length + 1) index t hs
    rw [hfn] at hf
    have hnw := ((searchSpec_of_eq hfn).found f rfl).1
    exact ⟨rfl, rfl, .node f (hf f rfl) hnw rfl rfl rfl⟩
  | @insert index id hn =>
    rw [hn] at hs'
    exact ⟨rfl, rfl, .node index (runningId_lt hs'.2.2.1) hs'.1 rfl rfl rfl⟩

end

section

variable (g : ActionGraph) (b : Bool) (l : Nat)

def PhaseOk (d : JobDispatcher) (index : Nat) : JobPhase → Prop
  | .queued | .running => True
  | .ran action | .sending action | .signalled action =>
    action.nodeIndex = index ∧ shouldAbortPipeline b action = false
  | .removed action => action.nodeIndex = index ∧ shouldAbortPipeline b action = false ∧
      index ∈ d.completing
  | .completed action => action.nodeIndex = index ∧ shouldAbortPipeline b action = false ∧
      index ∈ d.completedJobs
  | .finished => index ∈ d.completedJobs
  | .killed => False

/-- While `next` is called without any handle, the call started from a state where everything that
was returned is completed. -/
def LoopPhaseOk (run : PipelineRun) : LoopPhase → Prop
  | .top => run.dispatcher.next = .idle
  | .calling => (∃ index < g.nodes.length, index ∉ run.dispatcher.visited) ∧
      (run.handles = ∅ → ∃ start, Calling g start run.dispatcher ∧ Safe g start ∧
        ∀ index ∈ start.visited, index ∈ start.completedJobs)
  | .dispatching index => run.dispatcher.next = .idle ∧ index ∈ run.dispatcher.visited ∧
      run.jobs index = none ∧ index ∉ run.persistentIndices
  | .joining => run.dispatcher.next = .idle ∧ run.handles ≠ ∅
  | .exhausting i => run.dispatcher.next = .idle ∧
      (i = false → ∀ index < g.nodes.length, index ∈ run.dispatcher.visited)
  | .returned => run.dispatcher.next = .idle ∧
      (∀ index < g.nodes.length, index ∈ run.dispatcher.visited) ∧
      ∀ index ∈ run.persistentIndices, run.jobs index ≠ none

/-- Every node that was returned is accounted for. -/
structure LoopOk (run : PipelineRun) : Prop where
  safe : Safe g run.dispatcher
  queued : Queued g run.dispatcher
  bounded : Bounded g l run.dispatcher
  abort : run.abortToken = false
  cancel : run.cancelToken = false
  inGraph : ∀ index ∈ run.dispatcher.visited, index < g.nodes.length
  spawned : ∀ index, run.jobs index ≠ none → index ∈ run.dispatcher.visited
  phase : ∀ index phase, run.jobs index = some phase → PhaseOk b run.dispatcher index phase
  handled : ∀ index phase, run.jobs index = some phase → phase ≠ .finished → index ∈ run.handles
  handles : ∀ index ∈ run.handles, run.jobs index ≠ none
  accounted : ∀ index ∈ run.dispatcher.visited,
    run.jobs index ≠ none ∨ index ∈ run.persistentIndices ∨ run.loop = .dispatching index
  persistent : ∀ index ∈ run.persistentIndices, index ∈ run.dispatcher.completedJobs ∧
    (run.loop = .returned ∨ run.jobs index = none)
  loop : LoopPhaseOk g run run.loop

variable {g b l} {run run' : PipelineRun} {d d' : JobDispatcher}

variable {index : Nat}

lemma PhaseOk.mono {p : JobPhase} (h : PhaseOk b d index p)
    (hcp : index ∈ d.completing → index ∈ d'.completing)
    (hc : index ∈ d.completedJobs → index ∈ d'.completedJobs) : PhaseOk b d' index p := by
  cases p with
  | removed a => exact ⟨h.1, h.2.1, hcp h.2.2⟩
  | completed a => exact ⟨h.1, h.2.1, hc h.2.2⟩
  | finished => exact hc h
  | _ => exact h

lemma LoopOk.all_completed (hok : LoopOk g b l run) (hhdl : run.handles = ∅)
    (hl : ∀ index, run.loop ≠ .dispatching index) :
    ∀ index ∈ run.dispatcher.visited, index ∈ run.dispatcher.completedJobs := by
  intro index hv
  rcases hok.accounted index hv with hj | hdf | hd
  · obtain ⟨p, hp⟩ := ne_none_iff_exists'.mp hj
    by_cases hf : p = .finished
    · subst hf
      exact hok.phase index .finished hp
    · have hh := hok.handled index p hp hf
      rw [hhdl] at hh
      exact absurd hh (Finset.notMem_empty index)
  · exact (hok.persistent index hdf).1
  · exact absurd hd (hl index)

variable {loop : LoopPhase}

section

variable (hok : LoopOk g b l run)
include hok

lemma LoopOk.setLoop (hb : ∀ index, run.loop ≠ .dispatching index) (hr : run.loop ≠ .returned)
    (hl : LoopPhaseOk g run loop) : LoopOk g b l { run with loop := loop } :=
  { hok with
    accounted := fun index hv => (hok.accounted index hv).imp_right
      (fun ho => ho.imp_right (fun heq => absurd heq (hb index)))
    persistent := fun index hm => ⟨(hok.persistent index hm).1,
      .inr ((hok.persistent index hm).2.resolve_left hr)⟩
    loop := by cases loop <;> exact hl }

lemma LoopOk.enter (hl : run.loop = .top) (hq : run.dispatcher.hasQueuedJobs g) :
    LoopOk g b l { run with loop := .calling } := by
  have hid : run.dispatcher.next = .idle := by
    have hp := hok.loop
    rw [hl] at hp
    exact hp
  refine hok.setLoop (by simp [hl]) (by simp [hl]) ⟨?_, fun hh => ?_⟩
  · have hcr : run.dispatcher.visited.card < g.nodes.length := of_decide_eq_true hq
    by_contra ha
    push Not at ha
    have hs : Finset.range g.nodes.length ⊆ run.dispatcher.visited :=
      fun index hi => ha index (Finset.mem_range.mp hi)
    have hle := Finset.card_le_card hs
    rw [Finset.card_range] at hle
    omega
  · have hc : Calling g run.dispatcher run.dispatcher := by
      refine ⟨rfl, fun _ _ h => h, Finset.Subset.refl _, ?_⟩
      rw [hid]
      trivial
    exact ⟨run.dispatcher, hc, hok.safe, hok.all_completed hh (by simp [hl])⟩

lemma LoopOk.leave (hl : run.loop = .top) (hd : run.dispatcher.hasQueuedJobs g = false) :
    LoopOk g b l { run with loop := .exhausting false } := by
  have hid : run.dispatcher.next = .idle := by
    have hp := hok.loop
    rw [hl] at hp
    exact hp
  refine hok.setLoop (by simp [hl]) (by simp [hl]) ⟨hid, fun _ => ?_⟩
  have hcr : ¬ run.dispatcher.visited.card < g.nodes.length := of_decide_eq_false hd
  have hs : run.dispatcher.visited ⊆ Finset.range g.nodes.length :=
    fun index hi => Finset.mem_range.mpr (hok.inGraph index hi)
  have heq : run.dispatcher.visited = Finset.range g.nodes.length := by
    refine Finset.eq_of_subset_of_card_le hs ?_
    rw [Finset.card_range]
    omega
  intro index hi
  rw [heq]
  exact Finset.mem_range.mpr hi

/-- A call without any handle returns a node: otherwise every node that is left would wait
for one that is completed. -/
lemma LoopOk.handles_of_nothing (hlp : run.loop = .calling)
    (hr : (run.dispatcher.poll g).returned = none :: run.dispatcher.returned) :
    run.handles ≠ ∅ := by
  intro hh
  have hp := hok.loop
  rw [hlp] at hp
  obtain ⟨⟨index, hi, hn⟩, hc⟩ := hp
  obtain ⟨start, hc, hs, hd⟩ := hc hh
  have hpl : step g run.dispatcher .poll = some (run.dispatcher.poll g) := rfl
  have hb := (blocked_of_none hc hpl hr).2
  obtain ⟨o, ho, hl, hf⟩ := exists_not_blocked hs hd ⟨index, hi, hc.visited ▸ hn⟩
  exact hf (hb o ho hl)

lemma LoopOk.polled (hl : run.loop = .calling) (hret : loop ≠ .returned)
    (hv : (run.dispatcher.poll g).visited = run.dispatcher.visited ∨ ∃ index,
      index < g.nodes.length ∧ loop = .dispatching index ∧
        (run.dispatcher.poll g).visited = insert index run.dispatcher.visited)
    (hph : LoopPhaseOk g { run with dispatcher := run.dispatcher.poll g } loop) :
    LoopOk g b l { run with dispatcher := run.dispatcher.poll g, loop := loop } := by
  have hp := pollStep_poll g run.dispatcher
  obtain ⟨hcp, hc, _⟩ := pollOutcome_of_step hok.safe hok.bounded hp
  have hs : run.dispatcher.visited ⊆ (run.dispatcher.poll g).visited := by
    rcases hv with heq | ⟨index, _, _, heq⟩
    · exact heq.symm.subset
    · exact heq ▸ Finset.subset_insert _ _
  have hst : step g run.dispatcher .poll = some (run.dispatcher.poll g) := rfl
  exact {
    safe := safe_pollStep hok.safe hp
    queued := queued_step hok.safe hok.queued hst
    bounded := hok.bounded.pollStep hp
    abort := hok.abort
    cancel := hok.cancel
    inGraph := by
      intro index hi
      rcases hv with heq | ⟨new, hn, _, heq⟩
      · exact hok.inGraph index (heq ▸ hi)
      · rcases Finset.mem_insert.mp (heq ▸ hi) with rfl | ho
        · exact hn
        · exact hok.inGraph index ho
    spawned := fun index hj => hs (hok.spawned index hj)
    phase := by
      intro index p hj
      exact (hok.phase index p hj).mono (fun hm => hcp ▸ hm) (fun hm => hc ▸ hm)
    handled := hok.handled
    handles := hok.handles
    accounted := by
      intro index hi
      have ho : index ∈ run.dispatcher.visited →
          run.jobs index ≠ none ∨ index ∈ run.persistentIndices ∨ loop = .dispatching index := by
        intro hm
        refine (hok.accounted index hm).imp_right (fun hor => .inl (hor.resolve_right ?_))
        simp [hl]
      rcases hv with heq | ⟨new, _, hn, heq⟩
      · exact ho (heq ▸ hi)
      · rcases Finset.mem_insert.mp (heq ▸ hi) with rfl | hm
        · exact .inr (.inr hn)
        · exact ho hm
    persistent := by
      intro index hm
      obtain ⟨hd, hj⟩ := hok.persistent index hm
      refine ⟨hc ▸ hd, .inr (hj.resolve_left ?_)⟩
      simp [hl]
    loop := by cases loop <;> exact hph }

end

lemma poll_eq (run : PipelineRun) (hl : (if (run.dispatcher.poll g).next = .idle then
        match (run.dispatcher.poll g).returned with
        | some index :: _ => LoopPhase.dispatching index
        | _ => .joining
      else .calling) = loop) :
    run.poll g = { run with dispatcher := run.dispatcher.poll g, loop := loop } := by
  rw [← hl]
  rfl

inductive PollTurn (graph : ActionGraph) (limit : Nat) (run : PipelineRun) : Prop
  | goesOn (hpoll : run.poll graph =
        { run with dispatcher := run.dispatcher.poll graph, loop := .calling })
      (hvisited : (run.dispatcher.poll graph).visited = run.dispatcher.visited)
      (hweight : callWeight limit (run.dispatcher.poll graph).next <
        callWeight limit run.dispatcher.next)
  | joins (hpoll : run.poll graph =
        { run with dispatcher := run.dispatcher.poll graph, loop := .joining })
      (hvisited : (run.dispatcher.poll graph).visited = run.dispatcher.visited)
  | dispatches (index : Nat) (hindex : index < graph.nodes.length)
      (hnew : index ∉ run.dispatcher.visited)
      (hpoll : run.poll graph =
        { run with dispatcher := run.dispatcher.poll graph, loop := .dispatching index })
      (hvisited : (run.dispatcher.poll graph).visited = insert index run.dispatcher.visited)

lemma LoopOk.poll (hok : LoopOk g b l run) (hl : run.loop = .calling) :
    LoopOk g b l (run.poll g) ∧ PollTurn g l run := by
  have hph := hok.loop
  rw [hl] at hph
  obtain ⟨hlf, hc⟩ := hph
  obtain ⟨-, -, ho⟩ := pollOutcome_of_step hok.safe hok.bounded (pollStep_poll g run.dispatcher)
  cases ho with
  | goesOn hnx hr hv hw =>
    have hp := poll_eq run (if_neg hnx)
    refine ⟨?_, .goesOn hp hv hw⟩
    rw [hp]
    refine hok.polled hl LoopPhase.noConfusion (.inl hv) ⟨?_, fun hh => ?_⟩
    · obtain ⟨index, hi, hn⟩ := hlf
      exact ⟨index, hi, hv ▸ hn⟩
    · obtain ⟨start, hs, hrs⟩ := hc hh
      have hst : step g run.dispatcher .poll = some (run.dispatcher.poll g) := rfl
      exact ⟨start, calling_step hok.safe hok.queued hs hst hr, hrs⟩
  | nothing hnx hr hv =>
    have hp : run.poll g = { run with dispatcher := run.dispatcher.poll g, loop := .joining } := by
      refine poll_eq run ?_
      rw [if_pos hnx, hr]
    refine ⟨?_, .joins hp hv⟩
    rw [hp]
    exact hok.polled hl LoopPhase.noConfusion (.inl hv) ⟨hnx, hok.handles_of_nothing hl hr⟩
  | node index hi hn hnx hr hv =>
    have hp : run.poll g =
        { run with dispatcher := run.dispatcher.poll g, loop := .dispatching index } := by
      refine poll_eq run ?_
      rw [if_pos hnx, hr]
    refine ⟨?_, .dispatches index hi hn hp hv⟩
    rw [hp]
    have hf : run.jobs index = none := not_not.mp (fun hj => hn (hok.spawned index hj))
    refine hok.polled hl LoopPhase.noConfusion (.inr ⟨index, hi, rfl, hv⟩)
      ⟨hnx, ?_, hf, fun hm => ?_⟩
    · change index ∈ (run.dispatcher.poll g).visited
      rw [hv]
      exact Finset.mem_insert_self _ _
    · exact hn (hok.safe.completed (hok.persistent index hm).1)

structure Marked (graph : ActionGraph) (index : Nat) (d d' : JobDispatcher) : Prop where
  safe : Safe graph d'
  queued : Queued graph d'
  groups : d'.groups = d.groups
  next : d'.next = d.next
  visited : d'.visited = d.visited
  completed : d.completedJobs ⊆ d'.completedJobs
  completing : ∀ other ≠ index, other ∈ d.completing → other ∈ d'.completing

lemma Marked.refl (hs : Safe g d) (hq : Queued g d) (index : Nat) : Marked g index d d :=
  ⟨hs, hq, rfl, rfl, rfl, Finset.Subset.refl _, fun _ _ hm => hm⟩

lemma marked_of_removeRunning (hs : Safe g d)
    (hq : Queued g d) (h : d.step g (.removeRunning index) = some d') :
    Marked g index d d' ∧ index ∈ d'.completing := by
  have hs' := safe_step d _ d' hs h
  have hq' := queued_step hs hq h
  simp only [JobDispatcher.step] at h
  split_ifs at h
  cases h
  exact ⟨⟨hs', hq', rfl, rfl, rfl, Finset.Subset.refl _,
    fun o _ hm => Finset.mem_insert_of_mem hm⟩, Finset.mem_insert_self _ _⟩

lemma marked_of_insertCompleted (hs : Safe g d)
    (hq : Queued g d) (h : d.step g (.insertCompleted index) = some d') :
    Marked g index d d' ∧ index ∈ d'.completedJobs := by
  have hs' := safe_step d _ d' hs h
  have hq' := queued_step hs hq h
  simp only [JobDispatcher.step] at h
  split_ifs at h
  cases h
  exact ⟨⟨hs', hq', rfl, rfl, rfl, Finset.subset_insert _ _,
    fun o ho hm => Finset.mem_erase.mpr ⟨ho, hm⟩⟩, Finset.mem_insert_self _ _⟩

lemma Bounded.marked (hb : Bounded g l d) (h : Marked g index d d') : Bounded g l d' := by
  have ht : d'.todo = d.todo := by
    unfold JobDispatcher.todo
    rw [h.groups]
  exact ⟨ht ▸ hb.todo, ht ▸ hb.length, h.next ▸ hb.next⟩

section

variable (hok : LoopOk g b l run)
include hok

lemma LoopOk.moveJob {old p : JobPhase} (hj : run.jobs index = some old) (hol : old ≠ .finished)
    (hm : Marked g index run.dispatcher d) (hp : PhaseOk b d index p)
    (hr : run' = { run with
      jobs := update run.jobs index (some p)
      dispatcher := d
      results := run'.results
      started := run'.started
      failed := run'.failed }) : LoopOk g b l run' := by
  have hh : index ∈ run.handles := hok.handled index old hj hol
  have hs : ∀ o, update run.jobs index (some p) o = none ↔
      run.jobs o = none := by
    intro o
    by_cases heq : o = index
    · subst heq
      simp [hj]
    · rw [update_of_ne heq]
  rw [hr]
  exact {
    safe := hm.safe
    queued := hm.queued
    bounded := hok.bounded.marked hm
    abort := hok.abort
    cancel := hok.cancel
    inGraph := fun o ho => hok.inGraph o (hm.visited ▸ ho)
    spawned := fun o ho =>
      hm.visited ▸ hok.spawned o (fun hn => ho ((hs o).mpr hn))
    phase := by
      intro o f hf
      change update run.jobs index (some p) o = some f at hf
      by_cases heq : o = index
      · subst heq
        rw [update_self] at hf
        cases hf
        exact hp
      · rw [update_of_ne heq] at hf
        exact (hok.phase o f hf).mono (hm.completing o heq) (fun hme => hm.completed hme)
    handled := by
      intro o f hf hne
      change update run.jobs index (some p) o = some f at hf
      by_cases heq : o = index
      · rw [heq]
        exact hh
      · rw [update_of_ne heq] at hf
        exact hok.handled o f hf hne
    handles := fun o ho hn => hok.handles o ho ((hs o).mp hn)
    accounted := fun o ho => (hok.accounted o (hm.visited ▸ ho)).imp_left
      (fun hjb hn => hjb ((hs o).mp hn))
    persistent := fun o ho => ⟨hm.completed (hok.persistent o ho).1,
      (hok.persistent o ho).2.imp_right (hs o).mpr⟩
    loop := by
      have hl := hok.loop
      change LoopPhaseOk g _ run.loop
      cases hp : run.loop with
      | top =>
        rw [hp] at hl
        exact hm.next.trans hl
      | calling =>
        rw [hp] at hl
        obtain ⟨left, hlf, hnw⟩ := hl.1
        refine ⟨⟨left, hlf, hm.visited ▸ hnw⟩, fun hem => ?_⟩
        change run.handles = ∅ at hem
        rw [hem] at hh
        exact absurd hh (Finset.notMem_empty index)
      | dispatching o =>
        rw [hp] at hl
        exact ⟨hm.next.trans hl.1, hm.visited ▸ hl.2.1, (hs o).mpr hl.2.2.1, hl.2.2.2⟩
      | joining =>
        rw [hp] at hl
        exact ⟨hm.next.trans hl.1, hl.2⟩
      | exhausting i =>
        rw [hp] at hl
        exact ⟨hm.next.trans hl.1, fun hfl o ho => hm.visited ▸ hl.2 hfl o ho⟩
      | returned =>
        rw [hp] at hl
        exact ⟨hm.next.trans hl.1, fun o ho => hm.visited ▸ hl.2.1 o ho,
          fun o ho hn => hl.2.2 o ho ((hs o).mp hn)⟩ }

lemma marked_of_markCompleted (h : run.markCompleted g index = some run') :
    ∃ d, run' = { run with dispatcher := d } ∧ Marked g index run.dispatcher d ∧
      index ∈ d.completedJobs := by
  obtain ⟨removed, hrm, h⟩ := bind_eq_some_iff.mp h
  obtain ⟨i, hin, h⟩ := bind_eq_some_iff.mp h
  cases h
  obtain ⟨hr, _⟩ := marked_of_removeRunning hok.safe hok.queued hrm
  obtain ⟨hi, hm⟩ := marked_of_insertCompleted hr.safe hr.queued hin
  exact ⟨i, rfl, ⟨hi.safe, hi.queued, hi.groups.trans hr.groups,
    hi.next.trans hr.next, hi.visited.trans hr.visited,
    hr.completed.trans hi.completed, fun o ho hc =>
      hi.completing o ho (hr.completing o ho hc)⟩, hm⟩

lemma LoopOk.defer (hl : run.loop = .dispatching index) (hm : Marked g index run.dispatcher d)
    (hc : index ∈ d.completedJobs) :
    LoopOk g b l { run with
      dispatcher := d
      loop := .top
      persistentIndices := run.persistentIndices ++ [index] } := by
  have hp := hok.loop
  rw [hl] at hp
  obtain ⟨hi, hvst, hn, hnew⟩ := hp
  have hme : ∀ o ∈ run.persistentIndices ++ [index], o ∈ run.persistentIndices ∨ o = index := by
    intro o ho
    simpa using ho
  exact {
    safe := hm.safe
    queued := hm.queued
    bounded := hok.bounded.marked hm
    abort := hok.abort
    cancel := hok.cancel
    inGraph := fun o ho => hok.inGraph o (hm.visited ▸ ho)
    spawned := fun o ho => hm.visited ▸ hok.spawned o ho
    phase := by
      intro o f hf
      have hne : o ≠ index := by
        rintro rfl
        rw [hn] at hf
        cases hf
      exact (hok.phase o f hf).mono (hm.completing o hne) (fun hme => hm.completed hme)
    handled := hok.handled
    handles := hok.handles
    accounted := by
      intro o ho
      rcases hok.accounted o (hm.visited ▸ ho) with hj | hdf | hd
      · exact .inl hj
      · exact .inr (.inl (mem_append_left _ hdf))
      · rw [hl] at hd
        cases hd
        exact .inr (.inl (mem_append_right _ (mem_singleton_self _)))
    persistent := by
      intro o ho
      rcases hme o ho with hol | rfl
      · refine ⟨hm.completed (hok.persistent o hol).1, .inr ?_⟩
        exact (hok.persistent o hol).2.resolve_left (by simp [hl])
      · exact ⟨hc, .inr hn⟩
    loop := hm.next.trans hi }

lemma LoopOk.spawn {i : Bool} (hl : run.loop = .dispatching index) :
    LoopOk g b l { run.setJob index .queued with
      handles := insert index run.handles
      loop := if i then .exhausting true else .top } := by
  have hp := hok.loop
  rw [hl] at hp
  obtain ⟨hi, hv, hn, hnw⟩ := hp
  have hj : ∀ o, o ≠ index →
      update run.jobs index (some .queued) o = run.jobs o :=
    fun o hne => update_of_ne hne _ _
  exact {
    safe := hok.safe
    queued := hok.queued
    bounded := hok.bounded
    abort := hok.abort
    cancel := hok.cancel
    inGraph := hok.inGraph
    spawned := by
      intro o ho
      by_cases heq : o = index
      · rw [heq]
        exact hv
      · exact hok.spawned o (fun ho' => ho ((hj o heq).trans ho'))
    phase := by
      intro o f hf
      by_cases heq : o = index
      · subst heq
        change update run.jobs o (some .queued) o = some f at hf
        rw [update_self] at hf
        cases hf
        trivial
      · exact hok.phase o f ((hj o heq).symm.trans hf)
    handled := by
      intro o f hf hne
      by_cases heq : o = index
      · rw [heq]
        exact Finset.mem_insert_self _ _
      · exact Finset.mem_insert_of_mem (hok.handled o f ((hj o heq).symm.trans hf) hne)
    handles := by
      intro o ho
      change update run.jobs index (some .queued) o ≠ none
      by_cases heq : o = index
      · subst heq
        simp
      · rw [hj o heq]
        exact hok.handles o (Finset.mem_of_mem_insert_of_ne ho heq)
    accounted := by
      intro o ho
      by_cases heq : o = index
      · left
        change update run.jobs index (some .queued) o ≠ none
        rw [heq, update_self]
        exact some_ne_none _
      · rcases hok.accounted o ho with hjo | hdf | hd
        · exact .inl (fun hn' => hjo ((hj o heq).symm.trans hn'))
        · exact .inr (.inl hdf)
        · rw [hl] at hd
          cases hd
          exact absurd rfl heq
    persistent := by
      intro o ho
      have hne : o ≠ index := fun heq => hnw (heq ▸ ho)
      refine ⟨(hok.persistent o ho).1, .inr ((hj o hne).trans ?_)⟩
      exact (hok.persistent o ho).2.resolve_left (by simp [hl])
    loop := by
      cases i with
      | true => exact ⟨hi, Bool.noConfusion⟩
      | false => exact hi }

lemma LoopOk.spawnPersistent
    (hl : run.loop = .exhausting false) : LoopOk g b l run.spawnPersistent := by
  have hp := hok.loop
  rw [hl] at hp
  obtain ⟨hi, ha⟩ := hp
  have ho : ∀ index, index ∉ run.persistentIndices →
      run.spawnPersistent.jobs index = run.jobs index := fun index hm => if_neg hm
  have hn : ∀ index ∈ run.persistentIndices,
      run.spawnPersistent.jobs index = some .queued := fun index hm => if_pos hm
  exact {
    safe := hok.safe
    queued := hok.queued
    bounded := hok.bounded
    abort := hok.abort
    cancel := hok.cancel
    inGraph := hok.inGraph
    spawned := by
      intro index hj
      by_cases hm : index ∈ run.persistentIndices
      · exact hok.safe.completed (hok.persistent index hm).1
      · exact hok.spawned index (ho index hm ▸ hj)
    phase := by
      intro index p hj
      by_cases hm : index ∈ run.persistentIndices
      · rw [hn index hm] at hj
        cases hj
        trivial
      · exact hok.phase index p (ho index hm ▸ hj)
    handled := by
      intro index p hj hne
      by_cases hm : index ∈ run.persistentIndices
      · exact Finset.mem_union_right _ (mem_toFinset.mpr hm)
      · exact Finset.mem_union_left _ (hok.handled index p (ho index hm ▸ hj) hne)
    handles := by
      intro index hh
      by_cases hm : index ∈ run.persistentIndices
      · rw [hn index hm]
        exact some_ne_none _
      · rw [ho index hm]
        refine hok.handles index ((Finset.mem_union.mp hh).resolve_right ?_)
        exact fun hls => hm (mem_toFinset.mp hls)
    accounted := by
      intro index hv
      by_cases hm : index ∈ run.persistentIndices
      · exact .inr (.inl hm)
      · rcases hok.accounted index hv with hj | hdf | hd
        · exact .inl (ho index hm ▸ hj)
        · exact absurd hdf hm
        · rw [hl] at hd
          cases hd
    persistent := fun index hm => ⟨(hok.persistent index hm).1, .inl rfl⟩
    loop := ⟨hi, ha rfl, fun index hm => by
      rw [hn index hm]
      exact some_ne_none _⟩ }

lemma LoopOk.join (hw : run.loop.isWaiting) (hj : run.jobs index = some .finished) :
    LoopOk g b l { run with
      handles := run.handles.erase index
      loop := if run.loop = .joining then .top else run.loop } := by
  have hb : ∀ o, run.loop ≠ .dispatching o := by
    intro o heq
    rw [heq] at hw
    cases hw
  have hr : run.loop ≠ .returned := by
    intro heq
    rw [heq] at hw
    cases hw
  exact { hok with
    handled := by
      intro o p ho hn
      refine Finset.mem_erase.mpr ⟨fun heq => hn ?_, hok.handled o p ho hn⟩
      subst heq
      exact some.inj (ho.symm.trans hj)
    handles := fun o ho => hok.handles o (Finset.mem_of_mem_erase ho)
    accounted := fun o ho => (hok.accounted o ho).imp_right
      (fun hor => hor.imp_right (fun heq => absurd heq (hb o)))
    persistent := fun o ho => ⟨(hok.persistent o ho).1,
      .inr ((hok.persistent o ho).2.resolve_left hr)⟩
    loop := by
      have hl := hok.loop
      cases hp : run.loop with
      | joining =>
        rw [hp] at hl
        exact hl.1
      | exhausting i =>
        rw [hp] at hl
        exact hl
      | _ =>
        rw [hp] at hw
        cases hw }

end

end

end Moon.Proofs
