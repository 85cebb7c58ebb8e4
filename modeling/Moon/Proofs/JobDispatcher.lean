import Moon.JobDispatcher

/-! # Safety and progress of the job dispatcher -/

namespace Moon.Proofs

open Moon.Lib JobDispatcher List

def Ready (graph : ActionGraph) (completed : Finset Nat) (index : Nat) : Prop :=
  ∀ depIndex ∈ graph.neighbors index, depIndex ∈ completed

variable {graph : ActionGraph} {c : Finset Nat} {index : Nat}

lemma Ready.mono {l : Finset Nat} (h : Ready graph c index) (hs : c ⊆ l) : Ready graph l index :=
  fun j hd => hs (h j hd)

/-- A search only adds to the traversed set, finds a node that can be dispatched, and does
not traverse such a node without returning it. -/
structure SearchSpec (graph : ActionGraph) (visited completed traversed : Finset Nat)
    (result : Option Nat × Finset Nat) : Prop where
  subset : traversed ⊆ result.2
  found : ∀ index, result.1 = some index →
    index ∉ visited ∧ Ready graph completed index ∧ index ∈ result.2
  passed : ∀ index ∈ result.2, index ∉ traversed → index ∉ visited → index ∉ completed →
    Ready graph completed index → result.1 = some index

variable {v : Finset Nat} {fi : Nat → Finset Nat → Option Nat × Finset Nat}

lemma searchDependencies_spec (hf : ∀ index t, SearchSpec graph v c t (fi index t)) (ds : List Nat)
    (t : Finset Nat) : SearchSpec graph v c t (searchDependencies fi ds t) := by
  induction ds generalizing t with
  | nil =>
    refine ⟨fun index h => h, ?_, ?_⟩
    · intro index h
      cases h
    · intro index h hn
      exact absurd h hn
  | cons j ds ih =>
    have hd := hf j t
    unfold searchDependencies
    cases hr : fi j t with
    | mk f next =>
      rw [hr] at hd
      cases f with
      | some index => exact hd
      | none =>
        have hrs := ih next
        refine ⟨fun index h => hrs.subset (hd.subset h), hrs.found, ?_⟩
        intro index hm hn hv hc hrd
        by_cases hnx : index ∈ next
        · have := hd.passed index hnx hn hv hc hrd
          cases this
        · exact hrs.passed index hm hnx hv hc hrd

variable {t : Finset Nat}

lemma searchDependencies_congr {f' : Nat → Finset Nat → Option Nat × Finset Nat}
    (hf : ∀ index t, SearchSpec graph v c t (fi index t)) {ds : List Nat}
    (h : ∀ j ∈ ds, ∀ l, t ⊆ l → fi j l = f' j l) :
    searchDependencies fi ds t = searchDependencies f' ds t := by
  induction ds generalizing t with
  | nil => rfl
  | cons j ds ih =>
    have hd := h j mem_cons_self t (Finset.Subset.refl _)
    have hs := (hf j t).subset
    unfold searchDependencies
    rw [← hd]
    cases hr : fi j t with
    | mk f next =>
      rw [hr] at hs
      cases f with
      | some index => rfl
      | none =>
        apply ih
        intro dep hm l hl
        exact h dep (mem_cons_of_mem _ hm) l (hs.trans hl)

lemma neighbors_lt (graph : ActionGraph) {j : Nat} (h : j ∈ graph.neighbors index) :
    j < graph.nodes.length := by
  unfold ActionGraph.neighbors at h
  rw [mem_reverse] at h
  obtain ⟨e, hed, rfl⟩ := mem_map.mp h
  exact (graph.edges_lt e (mem_filter.mp hed).1).2

section

variable (graph : ActionGraph) (v c : Finset Nat) (g n index : Nat) (t : Finset Nat)

lemma findApplicableIndex_spec :
    SearchSpec graph v c t (findApplicableIndex graph v c g n index t) := by
  induction n generalizing index t with
  | zero =>
    refine ⟨fun index h => h, ?_, ?_⟩
    · intro index h
      cases h
    · intro index h hn
      exact absurd h hn
  | succ n ih =>
    -- the index itself is the only node that is new before the recursion
    have hnw (x : Nat) (hx : x ∈ insert index t) (hn : x ∉ t) : x = index := by
      rcases Finset.mem_insert.mp hx with h | h
      · exact h
      · exact absurd h hn
    unfold findApplicableIndex
    split_ifs with hsn hrd hgrp
    · refine ⟨Finset.subset_insert _ _, ?_, ?_⟩
      · intro x h
        cases h
      · intro x hx hn hv hc _
        rcases hsn with h | h | h
        · exact absurd (hnw x hx hn ▸ h) hn
        · exact absurd (hnw x hx hn ▸ h) hv
        · exact absurd (hnw x hx hn ▸ h) hc
    · refine ⟨Finset.subset_insert _ _, ?_, ?_⟩
      · intro x h
        cases h
        exact ⟨fun h => hsn (.inr (.inl h)), hrd, Finset.mem_insert_self _ _⟩
      · intro x hx hn _ _ _
        rw [hnw x hx hn]
    · have hs := searchDependencies_spec ih (graph.neighbors index) (insert index t)
      refine ⟨fun x h => hs.subset (Finset.mem_insert_of_mem h), hs.found, ?_⟩
      intro x hx hn hv hc hr
      by_cases hi : x ∈ insert index t
      · exact absurd (hnw x hi hn ▸ hr) hrd
      · exact hs.passed x hx hi hv hc hr
    · refine ⟨Finset.subset_insert _ _, ?_, ?_⟩
      · intro x h
        cases h
      · intro x hx hn _ _ hr
        exact absurd (hnw x hx hn ▸ hr) hrd

lemma mem_findApplicableIndex :
    index ∈ (findApplicableIndex graph v c g (n + 1) index t).2 := by
  unfold findApplicableIndex
  split_ifs
  · exact Finset.mem_insert_self _ _
  · exact Finset.mem_insert_self _ _
  · have hf := fun index t =>
      findApplicableIndex_spec graph v c g n index t
    exact (searchDependencies_spec hf _ _).subset (Finset.mem_insert_self _ _)
  · exact Finset.mem_insert_self _ _

/-- More fuel than nodes left to traverse changes nothing: the recursion of the source ends
before the fuel does. -/
theorem findApplicableIndex_fuel (n' : Nat) (hi : index < graph.nodes.length)
    (h : (Finset.range graph.nodes.length \ t).card < n)
    (h' : (Finset.range graph.nodes.length \ t).card < n') :
    findApplicableIndex graph v c g n index t = findApplicableIndex graph v c g n' index t := by
  induction n generalizing n' index t with
  | zero => omega
  | succ n ih =>
    obtain ⟨n', rfl⟩ : ∃ k, n' = k + 1 := ⟨n' - 1, by omega⟩
    unfold findApplicableIndex
    split_ifs with hsn hrdy hgrp
    · rfl
    · rfl
    · apply searchDependencies_congr (fun index t =>
        findApplicableIndex_spec graph v c g n index t)
      intro j hd l hl
      have hm : index ∈ Finset.range graph.nodes.length \ t :=
        Finset.mem_sdiff.mpr ⟨Finset.mem_range.mpr hi, fun ht => hsn (.inl ht)⟩
      have hlt : (Finset.range graph.nodes.length \ l).card <
          (Finset.range graph.nodes.length \ t).card := by
        refine Finset.card_lt_card ⟨Finset.sdiff_subset_sdiff (Finset.Subset.refl _)
          ((Finset.subset_insert index t).trans hl), fun hs => ?_⟩
        exact (Finset.mem_sdiff.mp (hs hm)).2 (hl (Finset.mem_insert_self _ _))
      exact ih j l n' (neighbors_lt graph hd) (by omega) (by omega)
    · rfl

lemma findApplicableIndex_lt (hi : index < graph.nodes.length) :
    ∀ f, (findApplicableIndex graph v c g n index t).1 = some f → f < graph.nodes.length := by
  induction n generalizing index t with
  | zero => exact fun f hf => (nomatch hf)
  | succ n ih =>
    have hdp : ∀ ds : List Nat, (∀ dep ∈ ds, dep < graph.nodes.length) →
        ∀ t f, (searchDependencies
          (findApplicableIndex graph v c g n) ds t).1 = some f → f < graph.nodes.length := by
      intro ds hl
      induction ds with
      | nil => exact fun _ f hf => (nomatch hf)
      | cons dep ds i =>
        intro t f hf
        unfold searchDependencies at hf
        split at hf
        · rename_i first l hfn
          cases hf
          exact ih dep t (hl dep mem_cons_self) f (by rw [hfn])
        · exact i (fun o ho => hl o (mem_cons_of_mem _ ho)) _ f hf
    intro f hf
    unfold findApplicableIndex at hf
    split_ifs at hf
    · cases hf
      exact hi
    · exact hdp _ (fun dep hd => neighbors_lt graph hd) _ f hf

end

lemma searchSpec_of_eq {g n : Nat} {r : Option Nat × Finset Nat}
    (h : findApplicableIndex graph v c g n index t = r) : SearchSpec graph v c t r := by
  rw [← h]
  exact findApplicableIndex_spec graph v c g n index t

inductive PollStep (graph : ActionGraph) (d : JobDispatcher) : JobDispatcher → Prop
  | call (hnext : d.next = .idle) :
      PollStep graph d { d with next := .scanning d.completedJobs ∅ d.todo }
  | finish {completed traversed : Finset Nat} (hnext : d.next = .scanning completed traversed []) :
      PollStep graph d (d.prune completed)
  | pass {completed traversed later : Finset Nat} {group index : Nat} {todo : List (Nat × Nat)}
      (hnext : d.next = .scanning completed traversed ((group, index) :: todo))
      (hfind : findApplicableIndex graph d.visited completed group (graph.nodes.length + 1)
        index traversed = (none, later)) :
      PollStep graph d { d with next := .scanning completed later todo }
  | candidate {completed traversed later : Finset Nat} {group index found : Nat}
      {todo : List (Nat × Nat)} {id : UInt64}
      (hnext : d.next = .scanning completed traversed ((group, index) :: todo))
      (hfind : findApplicableIndex graph d.visited completed group (graph.nodes.length + 1)
        index traversed = (some found, later))
      (hid : runningId graph found = some id) :
      PollStep graph d { d with next := .checking completed later todo found id }
  | free {completed traversed later : Finset Nat} {group index found : Nat}
      {todo : List (Nat × Nat)}
      (hnext : d.next = .scanning completed traversed ((group, index) :: todo))
      (hfind : findApplicableIndex graph d.visited completed group (graph.nodes.length + 1)
        index traversed = (some found, later))
      (hid : runningId graph found = none) :
      PollStep graph d (d.dispatch found)
  | defer {completed traversed : Finset Nat} {todo : List (Nat × Nat)} {index : Nat} {id : UInt64}
      (hnext : d.next = .checking completed traversed todo index id)
      (hrunning : d.isRunning graph id = true) :
      PollStep graph d { d with next := .scanning completed traversed todo }
  | claim {completed traversed : Finset Nat} {todo : List (Nat × Nat)} {index : Nat} {id : UInt64}
      (hnext : d.next = .checking completed traversed todo index id)
      (hrunning : d.isRunning graph id = false) :
      PollStep graph d { d with next := .inserting index id }
  | insert {index : Nat} {id : UInt64} (hnext : d.next = .inserting index id) :
      PollStep graph d { d.dispatch index with runningJobs := d.runningJobs.insert index id }

lemma pollStep_poll (graph : ActionGraph) (d : JobDispatcher) :
    PollStep graph d (d.poll graph) := by
  unfold poll
  split
  · exact .call ‹_›
  · exact .finish ‹_›
  · rename_i hn
    unfold scan
    split
    · exact .pass hn ‹_›
    · split
      · exact .candidate hn ‹_› ‹_›
      · exact .free hn ‹_› ‹_›
  · rename_i hn
    split_ifs with hr
    · exact .defer hn hr
    · exact .claim hn (Bool.not_eq_true _ ▸ hr)
  · exact .insert ‹_›

variable {d d' : JobDispatcher} {e : DispatchEvent}

lemma step_cases (h : step graph d e = some d') :
    PollStep graph d d' ∨
    (∃ index ∈ d.visited, d' = { d with
      runningJobs := d.runningJobs.erase index
      completing := Insert.insert index d.completing }) ∨
    (∃ index ∈ d.completing, d' = { d with
      completedJobs := Insert.insert index d.completedJobs
      completing := d.completing.erase index }) := by
  cases e with
  | poll =>
    left
    rw [← Option.some.inj h]
    exact pollStep_poll graph d
  | removeRunning index =>
    simp only [step] at h
    split_ifs at h with hm
    exact .inr (.inl ⟨index, hm, (Option.some.inj h).symm⟩)
  | insertCompleted index =>
    simp only [step] at h
    split_ifs at h with hm
    exact .inr (.inr ⟨index, hm, (Option.some.inj h).symm⟩)

lemma runningId_lt {id : UInt64} (h : runningId graph index = some id) :
    index < graph.nodes.length := by
  unfold runningId at h
  split at h
  · exact (List.getElem?_eq_some_iff.mp ‹_›).1
  · cases h

lemma isRunning_of_lookup {id : UInt64} (hl : index < graph.nodes.length)
    (h : d.runningJobs.lookup index = some id) : d.isRunning graph id := by
  unfold isRunning
  rw [any_eq_true]
  exact ⟨index, mem_range.mpr hl, by rw [h]; exact beq_self_eq_true _⟩

def NextSafe (graph : ActionGraph) (d : JobDispatcher) : NextState → Prop
  | .idle => True
  | .scanning c _ _ => c ⊆ d.completedJobs
  | .checking c _ _ index id => c ⊆ d.completedJobs ∧ index ∉ d.visited ∧
      Ready graph d.completedJobs index ∧ runningId graph index = some id
  | .inserting index id => index ∉ d.visited ∧ Ready graph d.completedJobs index ∧
      runningId graph index = some id ∧ ∀ other, d.runningJobs.lookup other ≠ some id

/-- Nodes are returned once, and no two with one id run together. -/
structure Safe (graph : ActionGraph) (d : JobDispatcher) : Prop where
  visited : ∀ index, index ∈ d.visited ↔ some index ∈ d.returned
  once : (d.returned.filter Option.isSome).Nodup
  completing : d.completing ⊆ d.visited
  completed : d.completedJobs ⊆ d.visited
  running : ∀ index id, d.runningJobs.lookup index = some id →
    runningId graph index = some id ∧ index ∈ d.visited ∧ index ∉ d.completing ∧
      index ∉ d.completedJobs
  exclusive : ∀ index other id, d.runningJobs.lookup index = some id →
    d.runningJobs.lookup other = some id → index = other
  next : NextSafe graph d d.next

lemma safe_new (graph : ActionGraph) (order : List Nat) :
    Safe graph (JobDispatcher.new graph order) where
  visited index := by simp [JobDispatcher.new]
  once := nodup_nil
  completing := Finset.Subset.refl _
  completed := Finset.Subset.refl _
  running index id h := by cases h
  exclusive index other id h := by cases h
  next := trivial

lemma Safe.setNext (h : Safe graph d) {s : NextState} (hn : NextSafe graph d s) :
    Safe graph { d with next := s } :=
  ⟨h.visited, h.once, h.completing, h.completed, h.running, h.exclusive, by
    cases s <;> exact hn⟩

lemma Safe.dispatch (h : Safe graph d) (hn : index ∉ d.visited) :
    Safe graph (d.dispatch index) where
  visited o := by
    simp only [JobDispatcher.dispatch, Finset.mem_insert, mem_cons, Option.some.injEq, h.visited]
  once := by
    simp only [JobDispatcher.dispatch, filter_cons, Option.isSome_some, if_true, nodup_cons]
    refine ⟨?_, h.once⟩
    intro hm
    exact hn ((h.visited index).mpr (mem_filter.mp hm).1)
  completing := h.completing.trans (Finset.subset_insert _ _)
  completed := h.completed.trans (Finset.subset_insert _ _)
  running o id hl := by
    obtain ⟨hi, hv, hr⟩ := h.running o id hl
    exact ⟨hi, Finset.mem_insert_of_mem hv, hr⟩
  exclusive := h.exclusive
  next := trivial

lemma safe_pollStep (h : Safe graph d) (hst : PollStep graph d d') : Safe graph d' := by
  have hs := h.next
  cases hst with
  | call hn => exact h.setNext (Finset.Subset.refl _)
  | finish hn =>
    refine ⟨?_, ?_, h.completing, h.completed, h.running, h.exclusive, trivial⟩
    · intro index
      simp [prune, h.visited]
    · simpa [prune] using h.once
  | pass hn hf =>
    rw [hn] at hs
    exact h.setNext hs
  | candidate hn hf hid =>
    rw [hn] at hs
    obtain ⟨hv, hr, -⟩ := (searchSpec_of_eq hf).found _ rfl
    exact h.setNext ⟨hs, hv, hr.mono hs, hid⟩
  | free hn hf hid =>
    exact h.dispatch ((searchSpec_of_eq hf).found _ rfl).1
  | defer hn hrn =>
    rw [hn] at hs
    exact h.setNext hs.1
  | claim hn hrn =>
    rw [hn] at hs
    obtain ⟨-, hv, hr, hid⟩ := hs
    refine h.setNext ⟨hv, hr, hid, ?_⟩
    intro o hlk
    have hlt := runningId_lt (h.running o _ hlk).1
    rw [isRunning_of_lookup hlt hlk] at hrn
    cases hrn
  | @insert index id hn =>
    rw [hn] at hs
    obtain ⟨hv, hr, hid, hfr⟩ := hs
    have hd := h.dispatch hv
    have hlk (o : Nat) (id' : UInt64) (hl : (d.runningJobs.insert index id).lookup o = some id') :
        (o = index ∧ id' = id) ∨ (o ≠ index ∧ d.runningJobs.lookup o = some id') := by
      by_cases ho : o = index
      · subst ho
        rw [Finmap.lookup_insert] at hl
        exact .inl ⟨rfl, (Option.some.inj hl).symm⟩
      · rw [Finmap.lookup_insert_of_ne _ ho] at hl
        exact .inr ⟨ho, hl⟩
    refine ⟨hd.visited, hd.once, hd.completing, hd.completed, ?_, ?_, trivial⟩
    · intro o id' hl
      rcases hlk o id' hl with ⟨rfl, rfl⟩ | ⟨-, hl⟩
      · exact ⟨hid, Finset.mem_insert_self _ _, fun hc => hv (h.completing hc),
          fun hc => hv (h.completed hc)⟩
      · exact hd.running o id' hl
    · intro i j id' hi hj
      rcases hlk i id' hi with ⟨rfl, rfl⟩ | ⟨-, hi'⟩
      · rcases hlk j id' hj with ⟨rfl, -⟩ | ⟨-, hj'⟩
        · rfl
        · exact absurd hj' (hfr j)
      · rcases hlk j id' hj with ⟨rfl, rfl⟩ | ⟨-, hj'⟩
        · exact absurd hi' (hfr i)
        · exact h.exclusive i j id' hi' hj'

lemma safe_step (d : JobDispatcher) (e : DispatchEvent) (d' : JobDispatcher) (h : Safe graph d)
    (hs : step graph d e = some d') : Safe graph d' := by
  rcases step_cases hs with hp | ⟨index, hm, rfl⟩ | ⟨index, hm, rfl⟩
  · exact safe_pollStep h hp
  · have hlk (o : Nat) (id : UInt64) (hl : (d.runningJobs.erase index).lookup o = some id) :
        o ≠ index ∧ d.runningJobs.lookup o = some id := by
      by_cases ho : o = index
      · subst ho
        rw [Finmap.lookup_erase] at hl
        cases hl
      · rw [Finmap.lookup_erase_ne ho] at hl
        exact ⟨ho, hl⟩
    refine ⟨h.visited, h.once, ?_, h.completed, ?_, ?_, ?_⟩
    · intro o ho
      rcases Finset.mem_insert.mp ho with rfl | ho
      · exact hm
      · exact h.completing ho
    · intro o id hl
      obtain ⟨hne, hl⟩ := hlk o id hl
      obtain ⟨hid, hv, hc, hd⟩ := h.running o id hl
      refine ⟨hid, hv, ?_, hd⟩
      intro ho
      rcases Finset.mem_insert.mp ho with rfl | ho
      · exact hne rfl
      · exact hc ho
    · intro i j id hi hj
      exact h.exclusive i j id (hlk i id hi).2 (hlk j id hj).2
    · have hn := h.next
      revert hn
      cases d.next with
      | inserting i id =>
        rintro ⟨hv, hr, hid, hf⟩
        exact ⟨hv, hr, hid, fun o hl => hf o (hlk o id hl).2⟩
      | idle | scanning | checking => exact fun hn => hn
  · have hg : d.completedJobs ⊆ insert index d.completedJobs := Finset.subset_insert _ _
    refine ⟨h.visited, h.once, (Finset.erase_subset _ _).trans h.completing, ?_, ?_,
      h.exclusive, ?_⟩
    · intro o ho
      rcases Finset.mem_insert.mp ho with rfl | ho
      · exact h.completing hm
      · exact h.completed ho
    · intro o id hl
      obtain ⟨hid, hv, hc, hd⟩ := h.running o id hl
      refine ⟨hid, hv, fun ho => hc (Finset.mem_of_mem_erase ho), ?_⟩
      intro ho
      rcases Finset.mem_insert.mp ho with rfl | ho
      · exact hc hm
      · exact hd ho
    · have hn := h.next
      revert hn
      cases d.next with
      | idle => exact fun hn => hn
      | scanning => exact fun hn => hn.trans hg
      | checking =>
        rintro ⟨hc, hv, hr, hid⟩
        exact ⟨hc.trans hg, hv, hr.mono hg, hid⟩
      | inserting =>
        rintro ⟨hv, hr, hid, hf⟩
        exact ⟨hv, hr.mono hg, hid, hf⟩

/-- In every interleaving, each node is returned at most once and only when all nodes it
depends on are completed, and two standard `RunTask` nodes with one id are never in the
running jobs together. -/
theorem dispatched_once_ready_exclusive (graph : ActionGraph) (topoIndices : List Nat)
    (events : List DispatchEvent) (d : JobDispatcher)
    (h : exec (step graph) (JobDispatcher.new graph topoIndices) events = some d) :
    (d.returned.filter Option.isSome).Nodup ∧
    (∀ event d' index, step graph d event = some d' →
      d'.returned = some index :: d.returned →
      ∀ depIndex ∈ graph.neighbors index, depIndex ∈ d.completedJobs) ∧
    (∀ index other node node', graph.nodes[index]? = some node →
      graph.nodes[other]? = some node' → node.isRunTask = true → node'.isRunTask = true →
      node.isStandard = true → node'.isStandard = true → node.getId = node'.getId →
      index ∈ d.runningJobs → other ∈ d.runningJobs → index = other) := by
  have hs : Safe graph d := exec_invariant safe_step (safe_new graph topoIndices) h
  have hid (index : Nat) (node : ActionNode) (hnd : graph.nodes[index]? = some node)
      (hm : index ∈ d.runningJobs) : d.runningJobs.lookup index = some node.getId := by
    obtain ⟨id, hl⟩ := Finmap.mem_iff.mp hm
    have hrn := (hs.running index id hl).1
    rw [runningId, hnd] at hrn
    dsimp only at hrn
    split_ifs at hrn
    rw [hl, ← Option.some.inj hrn]
  refine ⟨hs.once, ?_, ?_⟩
  · intro event d' index hst hr
    have hs := hs.next
    have hln (l : List (Option Nat)) (x : Option Nat) (hl : l = x :: l) : False :=
      absurd (congrArg length hl) (by simp)
    rcases step_cases hst with hp | ⟨_, -, rfl⟩ | ⟨_, -, rfl⟩
    · cases hp with
      | finish hn => cases hr
      | free hn hf hid =>
        rw [hn] at hs
        obtain ⟨-, hrd, -⟩ := (searchSpec_of_eq hf).found _ rfl
        cases hr
        exact hrd.mono hs
      | insert hn =>
        rw [hn] at hs
        cases hr
        exact hs.2.1
      | call | pass | candidate | defer | claim => exact (hln _ _ hr).elim
    · exact (hln _ _ hr).elim
    · exact (hln _ _ hr).elim
  · intro index other node node' hnd hn' _ _ _ _ hsm hi hj
    have hl := hid index node hnd hi
    have hl' := hid other node' hn' hj
    rw [hsm] at hl
    exact hs.exclusive index other _ hl hl'

def syncThenRun : ActionGraph where
  nodes := [.syncWorkspace, .runTask { target := Target.new "app" "build", id := some 7 }]
  edges := [(1, 0)]
  edges_lt := by decide
  acyclic := acyclic_pair

def syncThenRunEvents : List DispatchEvent :=
  [.poll, .poll, .removeRunning 0, .insertCompleted 0, .poll, .poll, .poll, .poll, .poll]

theorem syncThenRun_dispatched :
    ∃ d, exec (step syncThenRun) (JobDispatcher.new syncThenRun [0, 1]) syncThenRunEvents =
        some d ∧ d.returned = [some 1, some 0] ∧ (d.returned.filter Option.isSome).Nodup := by
  have hrt : (exec (step syncThenRun) (JobDispatcher.new syncThenRun [0, 1])
      syncThenRunEvents).map JobDispatcher.returned = some [some 1, some 0] := by
    decide +kernel
  obtain ⟨d, hd, hr⟩ := Option.map_eq_some_iff.mp hrt
  exact ⟨d, hd, hr, (dispatched_once_ready_exclusive syncThenRun [0, 1] _ d hd).1⟩

theorem syncThenRun_search_ends : findApplicableIndex syncThenRun ∅ ∅ 0 3 1 ∅ =
    findApplicableIndex syncThenRun ∅ ∅ 0 9 1 ∅ :=
  findApplicableIndex_fuel syncThenRun ∅ ∅ 0 3 1 ∅ 9 (by decide) (by decide) (by decide)

def Blocked (graph : ActionGraph) (start : JobDispatcher) (index : Nat) : Prop :=
  (∃ depIndex ∈ graph.neighbors index, depIndex ∉ start.completedJobs) ∨
  ∃ node, graph.nodes[index]? = some node ∧ node.isRunTask = true ∧ node.isStandard = true ∧
    ∃ other, start.runningJobs.lookup other = some node.getId

def Queued (graph : ActionGraph) (d : JobDispatcher) : Prop :=
  ∀ index < graph.nodes.length, index ∉ d.completedJobs → ∃ group ∈ d.groups, index ∈ group.2

lemma queued_new {order : List Nat} (h : ∀ index < graph.nodes.length, index ∈ order) :
    Queued graph (JobDispatcher.new graph order) := by
  intro index hl _
  refine ⟨(graph.getPriority index, order.filter
    (fun o => graph.getPriority o == graph.getPriority index)), ?_, ?_⟩
  · apply mem_map.mpr
    refine ⟨graph.getPriority index, ?_, rfl⟩
    rw [mem_insertionSort, mem_dedup]
    exact mem_map_of_mem (h index hl)
  · exact mem_filter.mpr ⟨h index hl, beq_self_eq_true _⟩

lemma queued_step (hsf : Safe graph d) (h : Queued graph d)
    (hst : step graph d e = some d') : Queued graph d' := by
  rcases step_cases hst with hp | ⟨_, -, rfl⟩ | ⟨_, -, rfl⟩
  · cases hp with
    | @finish c t hnx =>
      have hs := hsf.next
      rw [hnx] at hs
      intro index hl hn
      obtain ⟨g, hg, hm⟩ := h index hl hn
      have hnw : index ∉ c := fun hc => hn (hs hc)
      have hk : index ∈ g.2.filter (fun o => o ∉ c) := mem_filter.mpr ⟨hm, decide_eq_true hnw⟩
      refine ⟨_, mem_filter.mpr ⟨mem_map_of_mem hg, ?_⟩, hk⟩
      rw [Bool.not_eq_true', isEmpty_eq_false_iff]
      exact ne_nil_of_mem hk
    | call | pass | candidate | free | defer | claim | insert => exact h
  · exact h
  · intro index hl hn
    exact h index hl (fun hc => hn (Finset.mem_insert_of_mem hc))

/-- Every node that the call has passed over is blocked, and every other node that is left is still
to come. -/
def Passing (graph : ActionGraph) (start : JobDispatcher) (traversed : Finset Nat)
    (todo : List (Nat × Nat)) (candidate : Option Nat) : Prop :=
  ∀ index < graph.nodes.length, index ∉ start.visited →
    (index ∈ traversed → candidate = some index ∨ Blocked graph start index) ∧
    (index ∉ traversed → ∃ group, (group, index) ∈ todo)

def NextPassing (graph : ActionGraph) (start : JobDispatcher) : NextState → Prop
  | .idle => True
  | .scanning c t todo => start.completedJobs ⊆ c ∧ Passing graph start t todo none
  | .checking c t todo index id => start.completedJobs ⊆ c ∧
      runningId graph index = some id ∧ Passing graph start t todo (some index)
  | .inserting _ _ => True

structure Calling (graph : ActionGraph) (start d : JobDispatcher) : Prop where
  visited : d.visited = start.visited
  running : ∀ index id, d.runningJobs.lookup index = some id →
    start.runningJobs.lookup index = some id
  completed : start.completedJobs ⊆ d.completedJobs
  next : NextPassing graph start d.next

variable {a : JobDispatcher}

lemma Passing.search {l : Finset Nat} {gr : Nat} {todo : List (Nat × Nat)} {f : Option Nat}
    (h : Passing graph a t ((gr, index) :: todo) none) (hsn : a.completedJobs ⊆ c)
    (hv : c ⊆ a.visited)
    (hf : findApplicableIndex graph a.visited c gr (graph.nodes.length + 1) index t = (f, l)) :
    Passing graph a l todo f := by
  have hs := searchSpec_of_eq hf
  have hm := mem_findApplicableIndex graph a.visited c gr graph.nodes.length index t
  rw [hf] at hm
  intro o hl hnw
  obtain ⟨hp, htd⟩ := h o hl hnw
  constructor
  · intro hi
    by_cases hb : o ∈ t
    · rcases hp hb with hcn | hbl
      · cases hcn
      · exact .inr hbl
    · by_cases hr : Ready graph c o
      · left
        exact hs.passed o hi hb hnw (fun hc => hnw (hv hc)) hr
      · right
        left
        unfold Ready at hr
        push Not at hr
        obtain ⟨j, hd, hn⟩ := hr
        exact ⟨j, hd, fun hc => hn (hsn hc)⟩
  · intro hn
    obtain ⟨g, hg⟩ := htd (fun ht => hn (hs.subset ht))
    rcases mem_cons.mp hg with heq | hg
    · cases heq
      exact absurd hm hn
    · exact ⟨g, hg⟩

lemma calling_step (hs : Safe graph d) (hq : Queued graph d) (h : Calling graph a d)
    (hst : step graph d e = some d') (hrt : d'.returned = d.returned) : Calling graph a d' := by
  have hn' := h.next
  have hcm := hs.next
  have hv : d.completedJobs ⊆ a.visited := h.visited ▸ hs.completed
  have hln (x : Option Nat) (hl : x :: d.returned = d.returned) : False :=
    absurd (congrArg length hl) (by simp)
  rcases step_cases hst with hpl | ⟨index, -, rfl⟩ | ⟨_, -, rfl⟩
  · cases hpl with
    | call hnx =>
      refine ⟨h.visited, h.running, h.completed, h.completed, ?_⟩
      intro index hlt hn
      refine ⟨fun hin => absurd hin (Finset.notMem_empty index), fun _ => ?_⟩
      obtain ⟨group, hg, hm⟩ := hq index hlt (fun hc => hn (hv hc))
      exact ⟨group.1, mem_flatMap.mpr ⟨group, hg, mem_map_of_mem hm⟩⟩
    | pass hnx hf =>
      rw [hnx] at hn' hcm
      rw [h.visited] at hf
      exact ⟨h.visited, h.running, h.completed, hn'.1, hn'.2.search hn'.1 (hcm.trans hv) hf⟩
    | candidate hnx hf hi =>
      rw [hnx] at hn' hcm
      rw [h.visited] at hf
      exact ⟨h.visited, h.running, h.completed, hn'.1, hi, hn'.2.search hn'.1 (hcm.trans hv) hf⟩
    | @defer c t todo candidate id hnx hr =>
      rw [hnx] at hn'
      obtain ⟨hsn, hi, hps⟩ := hn'
      obtain ⟨o, -, hot⟩ := any_eq_true.mp hr
      have hd : Blocked graph a candidate := by
        unfold runningId at hi
        split at hi
        · rename_i node hnd
          split_ifs at hi with hrn
          cases hi
          refine .inr ⟨node, hnd, ?_, hrn.2, o, h.running _ _ (beq_iff_eq.mp hot)⟩
          cases node with
          | runTask inner => rfl
          | _ => exact absurd hrn.1 (lt_irrefl 0)
        · cases hi
      refine ⟨h.visited, h.running, h.completed, hsn, ?_⟩
      intro index hlt hn
      obtain ⟨hp, ht⟩ := hps index hlt hn
      refine ⟨fun hin => .inr ?_, ht⟩
      rcases hp hin with hcn | hb
      · cases hcn
        exact hd
      · exact hb
    | claim hnx hr => exact ⟨h.visited, h.running, h.completed, trivial⟩
    | finish | free | insert => exact (hln _ hrt).elim
  · refine ⟨h.visited, ?_, h.completed, h.next⟩
    intro o id hl
    apply h.running
    by_cases ho : o = index
    · subst ho
      rw [Finmap.lookup_erase] at hl
      cases hl
    · rwa [Finmap.lookup_erase_ne ho] at hl
  · exact ⟨h.visited, h.running, h.completed.trans (Finset.subset_insert _ _), h.next⟩

lemma blocked_of_none (h : Calling graph a d) (hs : step graph d e = some d')
    (hr : d'.returned = none :: d.returned) :
    d'.visited = a.visited ∧
      ∀ index < graph.nodes.length, index ∉ a.visited → Blocked graph a index := by
  have hn' := h.next
  have hln (x : Option Nat) (hl : d.returned = x :: d.returned) : False :=
    absurd (congrArg length hl) (by simp)
  rcases step_cases hs with hpl | ⟨_, -, rfl⟩ | ⟨_, -, rfl⟩
  · cases hpl with
    | @finish c t hnx =>
      rw [hnx] at hn'
      refine ⟨h.visited, fun index hlt hn => ?_⟩
      obtain ⟨hp, ht⟩ := hn'.2 index hlt hn
      by_cases hi : index ∈ t
      · rcases hp hi with hc | hb
        · cases hc
        · exact hb
      · obtain ⟨group, hg⟩ := ht hi
        cases hg
    | free | insert => cases hr
    | call | pass | candidate | defer | claim => exact (hln _ hr).elim
  · exact (hln _ hr).elim
  · exact (hln _ hr).elim

lemma step_returned (hs : step graph d e = some d') :
    (d'.returned = d.returned ∧ d'.visited = d.visited) ∨ ∃ r, d'.returned = r :: d.returned := by
  rcases step_cases hs with hp | ⟨_, -, rfl⟩ | ⟨_, -, rfl⟩
  · cases hp with
    | finish | free | insert => exact .inr ⟨_, rfl⟩
    | call | pass | candidate | defer | claim => exact .inl ⟨rfl, rfl⟩
  · exact .inl ⟨rfl, rfl⟩
  · exact .inl ⟨rfl, rfl⟩

structure AfterStart (graph : ActionGraph) (start d : JobDispatcher) : Prop where
  safe : Safe graph d
  queued : Queued graph d
  results : ∃ results, d.returned = results ++ start.returned ∧
    (results = [] → Calling graph start d) ∧
    (results = [none] → d.visited = start.visited ∧
      ∀ index < graph.nodes.length, index ∉ start.visited → Blocked graph start index)

lemma afterStart_step (d : JobDispatcher) (e : DispatchEvent) (d' : JobDispatcher)
    (h : AfterStart graph a d) (hs : step graph d e = some d') : AfterStart graph a d' := by
  refine ⟨safe_step d e d' h.safe hs, queued_step h.safe h.queued hs, ?_⟩
  obtain ⟨rs, hrs, hc, hn⟩ := h.results
  rcases step_returned hs with ⟨hsm, hv⟩ | ⟨r, hr⟩
  · refine ⟨rs, hsm.trans hrs, fun hnl => ?_, fun ho => ?_⟩
    · exact calling_step h.safe h.queued (hc hnl) hs hsm
    · rw [hv]
      exact hn ho
  · refine ⟨r :: rs, by rw [hr, hrs]; rfl, fun hnl => (by cases hnl), ?_⟩
    intro ho
    obtain ⟨rfl, hnl⟩ := cons.inj ho
    exact blocked_of_none (hc hnl) hs hr

lemma exists_not_blocked (hsf : Safe graph a) (hdn : ∀ index ∈ a.visited, index ∈ a.completedJobs)
    (hl : ∃ index < graph.nodes.length, index ∉ a.visited) :
    ∃ index < graph.nodes.length, index ∉ a.visited ∧ ¬ Blocked graph a index := by
  obtain ⟨f, hfs, hf⟩ := hl
  let left := (Finset.range graph.nodes.length).filter (fun index => index ∉ a.visited)
  have hm (index : Nat) : index ∈ left ↔ index < graph.nodes.length ∧ index ∉ a.visited := by
    rw [Finset.mem_filter, Finset.mem_range]
  obtain ⟨index, hi, hsn⟩ := graph.acyclic.exists_sink left ⟨f, (hm f).mpr ⟨hfs, hf⟩⟩
  obtain ⟨hlt, hnw⟩ := (hm index).mp hi
  refine ⟨index, hlt, hnw, ?_⟩
  rintro (⟨j, hd, hn⟩ | ⟨n, -, -, -, o, ho⟩)
  · -- a dependency outside of the nodes that are left was dispatched, and so completed
    have hed : (index, j) ∈ graph.edges := by
      unfold ActionGraph.neighbors at hd
      rw [mem_reverse] at hd
      obtain ⟨e, hed, rfl⟩ := mem_map.mp hd
      obtain ⟨hed, hs⟩ := mem_filter.mp hed
      rw [← beq_iff_eq.mp hs]
      exact hed
    by_cases hds : j ∈ a.visited
    · exact hn (hdn j hds)
    · exact hsn j ((hm j).mpr ⟨neighbors_lt graph hd, hds⟩) hed
  · obtain ⟨-, hv, -, hn⟩ := hsf.running o _ ho
    exact hn (hdn o hv)

def NextState.remaining : NextState → Nat
  | .idle => 0
  | .scanning _ _ todo => 2 * todo.length + 1
  | .checking _ _ todo _ _ => 2 * todo.length + 2
  | .inserting _ _ => 0

lemma exec_poll_returns (graph : ActionGraph) (d : JobDispatcher) (hnx : d.next ≠ .idle) :
    ∃ co d' r, exec (step graph) d (replicate co .poll) = some d' ∧
      d'.returned = r :: d.returned := by
  induction hn : NextState.remaining d.next using Nat.strong_induction_on generalizing d with
  | _ n ih =>
    -- either this step returns, or the call is closer to its end
    have hg (hsty : (d.poll graph).returned = d.returned) (hb : (d.poll graph).next ≠ .idle)
        (hl : NextState.remaining (d.poll graph).next < n) :
        ∃ co d' r, exec (step graph) d (replicate co .poll) = some d' ∧
          d'.returned = r :: d.returned := by
      obtain ⟨co, d', r, hex, hr⟩ := ih _ hl (d.poll graph) hb rfl
      exact ⟨co + 1, d', r, exec_cons.mpr ⟨_, rfl, hex⟩, by rw [hr, hsty]⟩
    have hst (r : Option Nat) (h : (d.poll graph).returned = r :: d.returned) :
        ∃ co d' r, exec (step graph) d (replicate co .poll) = some d' ∧
          d'.returned = r :: d.returned :=
      ⟨1, d.poll graph, r, rfl, h⟩
    have hs := pollStep_poll graph d
    revert hg hst hs
    generalize d.poll graph = next
    intro hg hst hs
    cases hs with
    | call hi => exact absurd hi hnx
    | finish h => exact hst none rfl
    | free h hf hid => exact hst _ rfl
    | insert h => exact hst _ rfl
    | pass h | defer h | claim h =>
      apply hg rfl (by simp)
      rw [← hn, h]
      simp [NextState.remaining]
    | candidate h hf hid =>
      apply hg rfl (by simp)
      rw [← hn, h]
      simp only [NextState.remaining, length_cons]
      omega

/-- A call of `next` that starts in a reachable state comes back with nothing only if every
node that is left waits for a dependency, or is a standard `RunTask` node with the id of a
running job. With all dispatched jobs completed and nodes left, it returns one of them. -/
theorem next_work_conserving (graph : ActionGraph) (topoIndices : List Nat)
    (htopo : ∀ index < graph.nodes.length, index ∈ topoIndices)
    (before : List DispatchEvent) (start : JobDispatcher)
    (hstart : exec (step graph) (JobDispatcher.new graph topoIndices) before = some start)
    (hidle : start.next = .idle) :
    (∀ during d, exec (step graph) start during = some d →
      d.returned = none :: start.returned →
      ∀ index < graph.nodes.length, index ∉ d.visited →
        (∃ depIndex ∈ graph.neighbors index, depIndex ∉ start.completedJobs) ∨
        ∃ node, graph.nodes[index]? = some node ∧ node.isRunTask = true ∧
          node.isStandard = true ∧
          ∃ other, start.runningJobs.lookup other = some node.getId) ∧
    ((∀ index ∈ start.visited, index ∈ start.completedJobs) →
      (∃ index < graph.nodes.length, index ∉ start.visited) →
      (∀ during d result, exec (step graph) start during = some d →
        d.returned = result :: start.returned → ∃ index, result = some index) ∧
      ∃ count d index, exec (step graph) start (replicate count .poll) = some d ∧
        d.returned = some index :: start.returned) := by
  have hs : Safe graph start := exec_invariant safe_step (safe_new graph topoIndices) hstart
  have hq : Queued graph start := by
    have h : Safe graph start ∧ Queued graph start := by
      refine exec_invariant (P := fun d => Safe graph d ∧ Queued graph d)
        (fun d e d' h hst => ?_) ⟨safe_new graph topoIndices, queued_new htopo⟩ hstart
      exact ⟨safe_step d e d' h.1 hst, queued_step h.1 h.2 hst⟩
    exact h.2
  have ha (during : List DispatchEvent) (d : JobDispatcher)
      (hrn : exec (step graph) start during = some d)
      (hr : d.returned = none :: start.returned) :
      d.visited = start.visited ∧
        ∀ index < graph.nodes.length, index ∉ start.visited → Blocked graph start index := by
    have hd := exec_invariant afterStart_step ⟨hs, hq, [], rfl,
      fun _ => ⟨rfl, fun _ _ h => h, Finset.Subset.refl _, by rw [hidle]; trivial⟩,
      fun h => (by cases h)⟩ hrn
    obtain ⟨rs, hrs, -, hn⟩ := hd.results
    apply hn
    rw [hr] at hrs
    exact (append_cancel_right hrs.symm : rs = [none])
  refine ⟨?_, ?_⟩
  · intro during d hrn hr index hl hnw
    obtain ⟨hv, hb⟩ := ha during d hrn hr
    exact hb index hl (hv ▸ hnw)
  · intro hdn hlf
    obtain ⟨free, hl, hnw, hf⟩ := exists_not_blocked hs hdn hlf
    have hsm (during : List DispatchEvent) (d : JobDispatcher) (result : Option Nat)
        (hrn : exec (step graph) start during = some d)
        (hr : d.returned = result :: start.returned) :
        ∃ index, result = some index := by
      cases result with
      | some index => exact ⟨index, rfl⟩
      | none => exact absurd ((ha during d hrn hr).2 free hl hnw) hf
    refine ⟨hsm, ?_⟩
    let ca := start.poll graph
    have hc : ca = { start with
        next := .scanning start.completedJobs ∅ start.todo } := by
      simp only [ca, poll, hidle]
    obtain ⟨count, d, result, hex, hre⟩ := exec_poll_returns graph ca (by rw [hc]; simp)
    have hrn : exec (step graph) start (replicate (count + 1) .poll) = some d :=
      exec_cons.mpr ⟨ca, rfl, hex⟩
    have hr : d.returned = result :: start.returned := by
      rw [hre, hc]
    obtain ⟨index, rfl⟩ := hsm _ d result hrn hr
    exact ⟨count + 1, d, index, hrn, hr⟩

/-- The first job was dispatched and is completed. -/
theorem syncThenRun_work_conserving : ∃ start,
    exec (step syncThenRun) (JobDispatcher.new syncThenRun [0, 1]) (syncThenRunEvents.take 4) =
      some start ∧ start.returned = [some 0] ∧
    ∃ count d index, exec (step syncThenRun) start (replicate count .poll) = some d ∧
      d.returned = [some index, some 0] := by
  have hs : (exec (step syncThenRun) (JobDispatcher.new syncThenRun [0, 1])
      (syncThenRunEvents.take 4)).map (fun d => (d.returned, d.next, d.visited, d.completedJobs)) =
        some ([some 0], .idle, {0}, {0}) := by decide
  obtain ⟨start, hd, hr⟩ := Option.map_eq_some_iff.mp hs
  obtain ⟨hret, hnext, hvisited, hcompleted⟩ : start.returned = [some 0] ∧ start.next = .idle ∧
      start.visited = {0} ∧ start.completedJobs = {0} := by simpa using hr
  have h := (next_work_conserving syncThenRun [0, 1] (by decide) _ start hd hnext).2
    (by rw [hvisited, hcompleted]; exact fun _ h => h) ⟨1, by decide, by rw [hvisited]; decide⟩
  rw [hret] at h
  exact ⟨start, hd, hret, h.2⟩

end Moon.Proofs
