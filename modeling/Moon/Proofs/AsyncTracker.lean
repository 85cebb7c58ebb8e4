import Moon.AsyncTracker
import Moon.Proofs.PooledTasks
import Moon.Proofs.TrackedMarks

/-!
# The asynchronous trackers agree with the affected tracker

A tracker of a single item has exactly the marks of this item.
-/

namespace Moon.Proofs

open Moon.Lib AffectedMarks List TrackCall

section

variable {K : Type} [DecidableEq K]

lemma mem_foldl_insert {r : AffectedBy} (a rs : List AffectedBy) :
    r ∈ a.foldl (fun acc r => insert r acc) rs ↔ r ∈ rs ∨ r ∈ a := by
  induction a generalizing rs with
  | nil => simp
  | cons o a ih =>
    rw [foldl_cons, ih, mem_cons]
    change r ∈ List.insert o rs ∨ _ ↔ _
    rw [List.mem_insert_iff, or_assoc, or_left_comm]

lemma lookup_extendMarks (ms t : Map K (List AffectedBy)) (key : K) :
    (extendMarks ms t).lookup key = (t.lookup key).elim (ms.lookup key)
      (fun a => some (a.foldl (fun acc r => insert r acc) ((ms.lookup key).getD []))) :=
  Map.lookup_merge _ ms t key

lemma hasMark_extendMarks {ms t : Map K (List AffectedBy)} {key : K}
    {r : AffectedBy} : HasMark (extendMarks ms t) key r ↔ HasMark ms key r ∨ HasMark t key r := by
  unfold HasMark
  rw [lookup_extendMarks]
  cases t.lookup key with
  | none => simp
  | some a => exact mem_foldl_insert a _

lemma Reasoned.extendMarks {ms t : Map K (List AffectedBy)} (hmk : Reasoned ms)
    (ht : Reasoned t) : Reasoned (extendMarks ms t) := by
  intro key hem
  rw [lookup_extendMarks] at hem
  cases ha : t.lookup key with
  | none =>
    rw [ha] at hem
    exact hmk key hem
  | some a =>
    rw [ha] at hem
    cases a with
    | nil => exact ht key ha
    | cons r a =>
      have hm := (mem_foldl_insert (r :: a) ((ms.lookup key).getD [])).mpr (.inr mem_cons_self)
      rw [Option.some.inj hem] at hm
      cases hm

/-- The same items are affected, by the same things in any order. -/
def SameReasons (left right : Map K (List AffectedBy)) : Prop :=
  ∀ key, (left.lookup key).map toFinset = (right.lookup key).map toFinset

lemma sameReasons_of_hasMark {left right : Map K (List AffectedBy)} (hlf : Reasoned left)
    (hrg : Reasoned right) (h : ∀ key r, HasMark left key r ↔ HasMark right key r) :
    SameReasons left right := by
  intro key
  have hk := h key
  have hlft := hlf key
  have hrgh := hrg key
  unfold HasMark at hk
  cases hl : left.lookup key with
  | none =>
    rw [hl] at hk
    cases hr : right.lookup key with
    | none => rfl
    | some rs =>
      rw [hr] at hk hrgh
      obtain ⟨r, hrs⟩ := exists_mem_of_ne_nil rs (fun hn => hrgh (by rw [hn]))
      exact absurd ((hk r).mpr hrs) not_mem_nil
  | some rs =>
    rw [hl] at hk hlft
    cases hr : right.lookup key with
    | none =>
      rw [hr] at hk
      obtain ⟨r, hrs⟩ := exists_mem_of_ne_nil rs (fun hn => hlft (by rw [hn]))
      exact absurd ((hk r).mp hrs) not_mem_nil
    | some others =>
      rw [hr] at hk
      simp only [Option.map_some, Option.some.injEq]
      ext r
      simpa using hk r

end

section

variable {c : AffectedTrackerConfig} {ms : AffectedMarks} {xs : List TrackedItem}

variable (c) in
def trackAlone : TrackedItem → Except String AffectedMarks
  | .project project => ProjectTracker.track c project
  | .task task => TaskTracker.track c task

lemma trackAlone_eq (x : TrackedItem) : trackAlone c x = trackItem c {} x := by
  cases x with
  | project project =>
    have hem : ({} : AffectedMarks).isProjectMarkedIgnoringRelations project = false := by
      simp [isProjectMarkedIgnoringRelations]
    have hc : isProjectAffected c {} project = ProjectTracker.isProjectAffected c project := by
      unfold isProjectAffected
      rw [hem]
      rfl
    simp only [trackAlone, ProjectTracker.track, trackItem, affectProject, hc]
    cases ProjectTracker.isProjectAffected c project with
    | none => rfl
    | some a =>
      change markProjectAffected c project a {} = ((markProjectAffected c project a {} >>= _) >>= _)
      cases markProjectAffected c project a {} with
      | error e => rfl
      | ok marked => rfl
  | task task =>
    have hem : ({} : AffectedMarks).isTaskMarkedIgnoringRelations task = false := by
      simp [isTaskMarkedIgnoringRelations]
    have hc : isTaskAffected c {} task = TaskTracker.isTaskAffected c task := by
      unfold isTaskAffected
      rw [hem]
      rfl
    simp only [trackAlone, TaskTracker.track, trackItem, affectTask, hc]
    cases TaskTracker.isTaskAffected c task with
    | error e => rfl
    | ok found =>
      cases found with
      | none => rfl
      | some a =>
        change markTaskAffected c task a {} = ((markTaskAffected c task a {} >>= _) >>= _)
        cases markTaskAffected c task a {} with
        | error e => rfl
        | ok marked => rfl

lemma Exact.trackItem_error (hc : Connected c.workspace)
    (hk : ∀ x ∈ xs, x.Known c) (hex : Exact c xs ms) {task : Task}
    (ht : task ∈ c.workspace.tasks) (hu : ¬ (TrackedItem.task task).Known c) :
    ∃ error, Proofs.trackItem c ms (.task task) = .error error := by
  cases hf : isTaskAffected c {} task with
  | ok found => exact absurd ⟨ht, found, hf⟩ hu
  | error error =>
    have hd : ¬ directlyMarked ms.tasks task.target := by
      intro hd
      obtain ⟨_, r, hr⟩ := hex.task_of_directlyMarked hc hk ht hd
      rw [hf] at hr
      cases hr
    refine ⟨error, ?_⟩
    simp only [Proofs.trackItem, affectTask]
    rw [isTaskAffected_eq, if_neg hd, hf]
    rfl

lemma Exact.extendAll (hc : Connected c.workspace)
    (on : AffectedMarks → AffectedMarks → Except String AffectedMarks)
    {next : List TrackedItem} (hn : ∀ x ∈ next, x.Known c)
    (h : ∀ x ∈ next, ∀ xs ms t, Exact c xs ms →
      Exact c [x] t →
      ∃ marks', on ms t = .ok marks' ∧ Exact c (x :: xs) marks') (hex : Exact c xs ms) :
    ∃ os : List AffectedMarks, next.map (trackAlone c) = os.map .ok ∧
      ∃ marks', os.foldlM on ms = .ok marks' ∧ Exact c (xs ++ next) marks' := by
  induction next generalizing xs ms with
  | nil => exact ⟨[], rfl, ms, rfl, by rwa [append_nil]⟩
  | cons x next ih =>
    obtain ⟨t, ht, hi⟩ := exact_nil.trackItem hc (by simp) (hn x mem_cons_self)
    obtain ⟨extended, hextn, hex⟩ := h x mem_cons_self xs ms t hex hi
    obtain ⟨os, hot, marks', hm', hex⟩ := ih (fun o ho => hn o (mem_cons_of_mem _ ho))
      (fun o ho => h o (mem_cons_of_mem _ ho)) hex
    refine ⟨t :: os, ?_, marks', ?_, hex.congr (fun o => ?_)⟩
    · rw [map_cons, map_cons, hot, trackAlone_eq, ht]
    · rw [foldlM_cons, hextn]
      exact hm'
    · simp [or_left_comm]

end

section

variable {c : AffectedTrackerConfig} {ms : AffectedMarks} {xs : List TrackedItem}

/-- The tasks given to the call are those of the workspace. -/
def Listed (config : AffectedTrackerConfig) : TrackCall → Prop
  | .tasksByInstance listed => ∀ task ∈ listed, task ∈ config.workspace.tasks
  | _ => True

variable (c) in
def CallReady (call : TrackCall) : Prop :=
  Resolves c call ∧ ∀ item ∈ trackedItems c call, item.Known c

variable {α : Type}

lemma Exact.foldlM_error (hc : Connected c.workspace) (load : α → Except String Task)
    {l : List α} (hlo : ∀ a ∈ l, ∀ task, load a = .ok task → task ∈ c.workspace.tasks)
    (hu : ∃ a ∈ l, ∀ task, load a = .ok task → ¬ (TrackedItem.task task).Known c)
    (hk : ∀ x ∈ xs, x.Known c) (hex : Exact c xs ms) :
    ∃ error, l.foldlM (fun ms a => do
      let task ← load a
      Proofs.trackItem c ms (.task task)) ms = .error error := by
  induction l generalizing xs ms with
  | nil =>
    obtain ⟨a, ha, -⟩ := hu
    cases ha
  | cons a l ih =>
    rw [foldlM_cons]
    cases hl : load a with
    | error error => exact ⟨error, rfl⟩
    | ok task =>
      change ∃ error, (Proofs.trackItem c ms (.task task) >>= _) = _
      by_cases hi : (TrackedItem.task task).Known c
      · obtain ⟨marked, hm, hn⟩ := hex.trackItem hc hk hi
        rw [hm]
        apply ih (fun o ho => hlo o (mem_cons_of_mem _ ho)) _ (forall_mem_cons.mpr ⟨hi, hk⟩) hn
        obtain ⟨o, ho, hb⟩ := hu
        rcases mem_cons.mp ho with rfl | hr
        · exact absurd hi (hb task hl)
        · exact ⟨o, hr, hb⟩
      · obtain ⟨error, her⟩ :=
          hex.trackItem_error hc hk (hlo a mem_cons_self task hl) hi
        rw [her]
        exact ⟨error, rfl⟩

lemma mem_of_orError_getTask {t : Target} {task : Task}
    (h : orError (c.workspace.getTask t) = .ok task) : task ∈ c.workspace.tasks := by
  cases hg : c.workspace.getTask t with
  | error error =>
    rw [hg] at h
    cases h
  | ok found =>
    rw [hg] at h
    cases h
    exact (getTask_eq_ok hg).1

lemma trackTasksByTarget_eq_foldlM (ts : List Target) (ms : AffectedMarks) :
    trackTasksByTarget c ms ts = ts.foldlM (fun ms t => do
      let task ← orError (c.workspace.getTask t)
      trackItem c ms (.task task)) ms := by
  induction ts generalizing ms with
  | nil => rfl
  | cons t ts ih =>
    rw [foldlM_cons]
    unfold trackTasksByTarget
    cases orError (c.workspace.getTask t) with
    | error error => rfl
    | ok task =>
      simp only [trackItem]
      change (affectTask c ms task >>= _) = ((affectTask c ms task >>= _) >>= _)
      cases affectTask c ms task with
      | error error => rfl
      | ok found =>
        cases found with
        | none => exact ih ms
        | some marked => exact ih marked

variable {tasks : List Task}

lemma trackTasksByInstance_error (hc : Connected c.workspace)
    (hts : ∀ t ∈ tasks, t ∈ c.workspace.tasks) (hun : ∃ t ∈ tasks, ¬ (TrackedItem.task t).Known c)
    (hk : ∀ x ∈ xs, x.Known c) (hex : Exact c xs ms) :
    ∃ e, trackTasksByInstance c ms tasks = .error e := by
  rw [trackTasksByInstance_eq, foldlM_map]
  apply hex.foldlM_error hc .ok _ _ hk
  · rintro t ht _ ⟨⟩
    exact hts t ht
  · obtain ⟨t, ht, hu⟩ := hun
    refine ⟨t, ht, ?_⟩
    rintro _ ⟨⟩
    exact hu

lemma callReady_projects : CallReady c .projects := ⟨trivial, forall_mem_map.mpr (fun _ hp => hp)⟩

lemma exists_unknown_of_not_ready (h : ¬ CallReady c (.tasksByInstance tasks)) :
    ∃ task ∈ tasks, ¬ (TrackedItem.task task).Known c := by
  by_contra ha
  push Not at ha
  exact h ⟨trivial, forall_mem_map.mpr ha⟩

/-- The targets of a call that is not ready have one without a task, or with one that cannot
be checked. -/
lemma exists_target_of_not_ready {ts : List Target} (h : ¬ CallReady c (.tasksByTarget ts)) :
    ∃ t ∈ ts, ∀ task, orError (c.workspace.getTask t) = .ok task →
      ¬ (TrackedItem.task task).Known c := by
  by_contra ha
  push Not at ha
  have hg : ∀ t ∈ ts, ∃ task, c.workspace.getTask t = .ok task ∧
      (TrackedItem.task task).Known c := by
    intro t ht
    obtain ⟨task, hts, hk⟩ := ha t ht
    cases hg : c.workspace.getTask t with
    | error error =>
      rw [hg] at hts
      cases hts
    | ok found =>
      rw [hg] at hts
      cases hts
      exact ⟨task, rfl, hk⟩
  refine h ⟨fun t ht => (hg t ht).imp (fun _ hts => hts.1), ?_⟩
  intro x hi
  obtain ⟨t, ht, hf⟩ := mem_filterMap.mp hi
  obtain ⟨task, hts, hk⟩ := hg t ht
  rw [hts] at hf
  cases hf
  exact hk

variable {call : TrackCall}

lemma Exact.run_error (hc : Connected c.workspace) (hl : Listed c call) (hu : ¬ CallReady c call)
    (hk : ∀ x ∈ xs, x.Known c) (hex : Exact c xs ms) : ∃ e, call.run c ms = .error e := by
  cases call with
  | projects => exact absurd callReady_projects hu
  | tasks =>
    simp only [run, trackTasks, mapM_getTask_all hc]
    exact trackTasksByInstance_error hc (fun _ ht => ht) (exists_unknown_of_not_ready hu) hk hex
  | tasksByInstance listed =>
    exact trackTasksByInstance_error hc hl (exists_unknown_of_not_ready hu) hk hex
  | tasksByTarget ts =>
    simp only [run, trackTasksByTarget_eq_foldlM]
    exact hex.foldlM_error hc _ (fun _ _ _ ht => mem_of_orError_getTask ht)
      (exists_target_of_not_ready hu) hk

variable {n : Nat} {j : Nat → Nat}

lemma Exact.runPooledTasks (hc : Connected c.workspace) (x : α → TrackedItem)
    (o : AffectedMarks → AffectedMarks → Except String AffectedMarks) {q : List α}
    (hq : ∀ a ∈ q, (x a).Known c)
    (hext : ∀ a xs ms t, Exact c xs ms →
      Exact c [x a] t →
      ∃ marks', o ms t = .ok marks' ∧ Exact c (x a :: xs) marks') (hex : Exact c xs ms) :
    ∃ marks', runPooledTasks n (fun a => .ok (trackAlone c (x a))) o
        j q ms = .ok marks' ∧ Exact c (xs ++ q.map x) marks' := by
  obtain ⟨os, ho, marks', hm', hex⟩ := hex.extendAll hc o
    (forall_mem_map.mpr hq) (forall_mem_map.mpr (fun a _ => hext a))
  refine ⟨marks', (runPooledTasks_eq_ok j q marks').mpr ⟨os, ?_, hm'⟩, hex⟩
  have ha := congrArg (map (Except.ok : _ → Except String (Except String AffectedMarks))) ho
  rw [map_map, map_map, map_map] at ha
  exact ha

lemma runPooledTasks_error {t : α → Except String AffectedMarks}
    {onOutput : AffectedMarks → AffectedMarks → Except String AffectedMarks} {q : List α}
    {a : α} {error : String} (ha : a ∈ q) (her : t a = .error error) :
    ∃ error, runPooledTasks n (fun a => .ok (t a)) onOutput j q ms = .error error := by
  cases hr : runPooledTasks n (fun a => .ok (t a)) onOutput j q ms with
  | error error => exact ⟨error, rfl⟩
  | ok marks' =>
    obtain ⟨os, hot, -⟩ := (runPooledTasks_eq_ok j q marks').mp hr
    have hm := mem_map_of_mem (f := fun a => (.ok (t a) :
      Except String (Except String AffectedMarks))) ha
    rw [hot, her] at hm
    obtain ⟨output, -, ho⟩ := mem_map.mp hm
    cases ho

lemma Exact.trackTasksByInstanceAsync (hc : Connected c.workspace)
    (hts : ∀ task ∈ tasks, (TrackedItem.task task).Known c) (hex : Exact c xs ms) :
    ∃ ms', trackTasksByInstanceAsync c n j ms tasks = .ok ms' ∧
      Exact c (xs ++ tasks.map .task) ms' := by
  refine hex.runPooledTasks hc TrackedItem.task _ hts
    (fun _ _ _ _ hm ht => ⟨_, rfl, hm.cons (fun k m => ?_) (fun k m => ?_)
      (fun h => h.extendMarks ht.reasonedTasks)
      (fun h => h.extendMarks ht.reasonedProjects)⟩)
  · rw [hasMark_extendMarks, ht.tasks]
    simp
  · rw [hasMark_extendMarks, ht.projects]
    simp

lemma trackTasksByInstanceAsync_error (hc : Connected c.workspace)
    (hts : ∀ t ∈ tasks, t ∈ c.workspace.tasks) (hun : ∃ t ∈ tasks, ¬ (TrackedItem.task t).Known c) :
    ∃ e, trackTasksByInstanceAsync c n j ms tasks = .error e := by
  obtain ⟨t, ht, hu⟩ := hun
  obtain ⟨e, her⟩ := exact_nil.trackItem_error hc (by simp) (hts t ht) hu
  rw [← trackAlone_eq] at her
  exact runPooledTasks_error ht her

lemma mapM_getTask_of_resolves {ts : List Target} (hr : Resolves c (.tasksByTarget ts)) :
    ∃ tasks, ts.mapM (fun t => orError (c.workspace.getTask t)) = .ok tasks ∧
      trackedItems c (.tasksByTarget ts) = tasks.map .task := by
  induction ts with
  | nil => exact ⟨[], rfl, rfl⟩
  | cons t ts ih =>
    obtain ⟨task, ht⟩ := hr t mem_cons_self
    obtain ⟨tasks, hts, hi⟩ := ih (fun o ho => hr o (mem_cons_of_mem _ ho))
    refine ⟨task :: tasks, ?_, ?_⟩
    · rw [mapM_cons, ht, hts]
      rfl
    · rw [map_cons, ← hi]
      simp [trackedItems, ht, Except.toOption]

lemma Exact.runAsync (hc : Connected c.workspace) (hr : CallReady c call) (hex : Exact c xs ms) :
    ∃ ms', call.runAsync c n j ms = .ok ms' ∧ Exact c (xs ++ trackedItems c call) ms' := by
  cases call with
  | projects =>
    simp only [runAsync, trackProjectsAsync, mapM_getProject_all hc]
    refine hex.runPooledTasks hc TrackedItem.project _ (fun _ hp => hp)
      (fun _ _ _ _ hm ht => ⟨_, rfl, hm.cons (fun k m => ?_) (fun k m => ?_) id
        (fun h => h.extendMarks ht.reasonedProjects)⟩)
    · simp [ItemTaskMark]
    · rw [hasMark_extendMarks, ht.projects]
      simp
  | tasks =>
    simp only [runAsync, trackTasksAsync, mapM_getTask_all hc]
    exact hex.trackTasksByInstanceAsync hc (forall_mem_map.mp hr.2)
  | tasksByInstance listed =>
    exact hex.trackTasksByInstanceAsync hc (forall_mem_map.mp hr.2)
  | tasksByTarget ts =>
    obtain ⟨tasks, hts, hi⟩ := mapM_getTask_of_resolves hr.1
    have hk := hr.2
    rw [hi] at hk ⊢
    simp only [runAsync, trackTasksByTargetAsync, hts]
    exact hex.trackTasksByInstanceAsync hc (forall_mem_map.mp hk)

lemma runAsync_error (hc : Connected c.workspace) (hl : Listed c call) (hu : ¬ CallReady c call) :
    ∃ error, call.runAsync c n j ms = .error error := by
  cases call with
  | projects => exact absurd callReady_projects hu
  | tasks =>
    simp only [runAsync, trackTasksAsync, mapM_getTask_all hc]
    exact trackTasksByInstanceAsync_error hc (fun _ ht => ht) (exists_unknown_of_not_ready hu)
  | tasksByInstance listed =>
    exact trackTasksByInstanceAsync_error hc hl (exists_unknown_of_not_ready hu)
  | tasksByTarget ts =>
    simp only [runAsync, trackTasksByTargetAsync]
    cases hts : ts.mapM (fun t => orError (c.workspace.getTask t)) with
    | error error => exact ⟨error, rfl⟩
    | ok tasks =>
      apply trackTasksByInstanceAsync_error hc
      · intro task ht
        obtain ⟨t, -, hg⟩ := mem_of_mapM_eq_ok hts ht
        exact mem_of_orError_getTask hg
      · obtain ⟨t, htg, hun⟩ := exists_target_of_not_ready hu
        obtain ⟨task, hg, hm⟩ := mapM_eq_ok_mem hts htg
        exact ⟨task, hm, hun task hg⟩

lemma agree_of_exact (hc : Connected c.workspace) {cs : List (TrackCall × (Nat → Nat))}
    (hl : ∀ call ∈ cs, Listed c call.1) (hk : ∀ x ∈ xs, x.Known c) {marks' : AffectedMarks}
    (hex : Exact c xs ms) (he' : Exact c xs marks') :
    (∃ d d', (cs.map Prod.fst).foldlM (run c) ms = .ok d ∧
        cs.foldlM (fun ms call => call.1.runAsync c n call.2 ms) marks' = .ok d' ∧
        SameReasons d.projects d'.projects ∧ SameReasons d.tasks d'.tasks) ∨
      (∃ e, (cs.map Prod.fst).foldlM (run c) ms = .error e) ∧ ∃ e, cs.foldlM (fun ms call =>
          call.1.runAsync c n call.2 ms) marks' = .error e := by
  induction cs generalizing xs ms marks' with
  | nil =>
    refine .inl ⟨ms, marks', rfl, rfl, ?_, ?_⟩
    · apply sameReasons_of_hasMark hex.reasonedProjects he'.reasonedProjects
      intro key r
      rw [hex.projects, he'.projects]
    · apply sameReasons_of_hasMark hex.reasonedTasks he'.reasonedTasks
      intro key r
      rw [hex.tasks, he'.tasks]
  | cons call cs ih =>
    have hcl := hl call mem_cons_self
    rw [map_cons, foldlM_cons, foldlM_cons]
    by_cases hr : CallReady c call.1
    · obtain ⟨next, hn, hnxt⟩ := hex.trackItems hc hk hr.2
      rw [← run_eq_foldlM hc hr.1] at hn
      obtain ⟨next', hnx', hn'⟩ := he'.runAsync hc hr
      have ha : ∀ x ∈ xs ++ trackedItems c call.1, x.Known c := forall_mem_append.mpr ⟨hk, hr.2⟩
      rw [hn, hnx']
      exact ih (fun o ho => hl o (mem_cons_of_mem _ ho)) ha hnxt hn'
    · obtain ⟨e, her⟩ := hex.run_error hc hcl hr hk
      obtain ⟨error', her'⟩ := runAsync_error hc hcl hr
      rw [her, her']
      exact .inr ⟨⟨e, rfl⟩, error', rfl⟩

/-- For any calls on a new tracker and any order in which the workers of each call are done,
the synchronous and the asynchronous tracker mark the same projects and tasks, each for the
same set of reasons, or both fail. -/
theorem async_tracker_agrees (config : AffectedTrackerConfig)
    (hconnected : Connected config.workspace) (concurrency : Nat)
    (calls : List (TrackCall × (Nat → Nat))) (hlisted : ∀ call ∈ calls, Listed config call.1) :
    (∃ marks marks', (calls.map Prod.fst).foldlM (TrackCall.run config) {} = .ok marks ∧
        calls.foldlM (fun marks call => call.1.runAsync config concurrency call.2 marks) {} =
          .ok marks' ∧
        SameReasons marks.projects marks'.projects ∧ SameReasons marks.tasks marks'.tasks) ∨
      (∃ error, (calls.map Prod.fst).foldlM (TrackCall.run config) {} = .error error) ∧
        ∃ error, calls.foldlM (fun marks call =>
          call.1.runAsync config concurrency call.2 marks) {} = .error error :=
  agree_of_exact hconnected hlisted (by simp) exact_nil exact_nil

theorem bundle_async_agrees : ∃ marks marks',
      [TrackCall.projects, .tasks].foldlM (TrackCall.run bundleConfig) {} = .ok marks ∧
      [(TrackCall.projects, fun joins => joins + 1), (.tasks, fun _ => 1)].foldlM
        (fun marks call => call.1.runAsync bundleConfig 4 call.2 marks) {} = .ok marks' ∧
      SameReasons marks.projects marks'.projects ∧ SameReasons marks.tasks marks'.tasks := by
  have ha := async_tracker_agrees bundleConfig connected_bundleWorkspace 4
    [(projects, fun joins => joins + 1), (.tasks, fun _ => 1)]
    (by simp [Listed])
  exact ha.resolve_right (fun hf => (nomatch hf.1))

end

end Moon.Proofs
