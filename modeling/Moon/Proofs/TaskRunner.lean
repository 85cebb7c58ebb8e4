import Moon.Proofs.TaskExecutor
import Moon.TaskRunner

/-! # Histories of runs of one task -/

namespace Moon.Proofs

open Moon.Lib TaskRunner Bool CacheItem

variable {env : RunEnv} {k : Task} {runner : TaskRunner} {history : History} {hash : String}

/-- The outputs on disk are as they were. -/
def Untouched (runner : TaskRunner) : Prop := runner.executed = false ∧ runner.hydrated = false

instance (runner : TaskRunner) : Decidable (Untouched runner) := inferInstanceAs (Decidable (_ ∧ _))

/-- The runner after the saved hash has moved. -/
def withHash (hash : String) (runner : TaskRunner) : TaskRunner :=
  { runner with cache := { runner.cache with hash := hash } }

/-- What `is_cached` answers a runner `start`, and the runner that it leaves. -/
structure Answered (env : RunEnv) (hash : String) (start : TaskRunner)
    (answer : Option HydrateFrom) (runner : TaskRunner) : Prop where
  previous : answer = some .previousOutput →
    start.cache.exitCode = 0 ∧ start.cache.hash = hash ∧ runner = start
  stored : ∀ source, answer = some (.storage source) → env.loadManifest = .ok (some source)
  asked : answer.isSome = true → env.mode.isReadable = true ∨ start.cache.hash = hash
  moved : runner = start ∨ env.mode.isReadable = true ∧ runner = withHash hash start
  cacheHash : env.mode.isReadable = true → runner.cache.hash = hash

lemma isCached_spec (env : RunEnv) (hash : String) (start : TaskRunner) :
    Triple (fun runner => runner = start) (isCached env hash) (Answered env hash start)
      (fun _ runner => runner = start ∨ env.mode.isReadable ∧ env.archiveStale.isOk = false ∧
        runner = withHash hash start) := by
  unfold isCached
  apply Triple.get_bind
  rintro runner rfl
  apply Triple.lift_bind _ (fun _ s _ hs => .inl hs)
  intro lifetime _
  dsimp only
  apply Triple.lift_bind _ (fun _ s _ hs => .inl hs)
  intro reusable hr
  apply Triple.ite
  · rintro rfl
    have hc : runner.cache.exitCode = 0 ∧ runner.cache.hash = hash := by
      split at hr
      · rename_i h
        rwa [and_eq_true, beq_iff_eq, beq_iff_eq] at h
      · cases hr
    apply Triple.pure
    rintro s rfl
    refine ⟨fun _ => ⟨hc.1, hc.2, rfl⟩, fun source h => ?_, fun _ => .inr hc.2, .inl rfl,
      fun _ => hc.2⟩
    split_ifs at h
    cases h
  · intro _
    apply Triple.ite
    · intro hm
      apply Triple.pure
      rintro s rfl
      refine ⟨fun h => (by cases h), fun _ h => (by cases h), fun h => (by cases h), .inl rfl,
        fun h => ?_⟩
      simp [h] at hm
    · intro hm
      have hrd : env.mode.isReadable := by simpa using hm
      apply Triple.modify_bind (M := fun s => s = withHash hash runner)
      · rintro s rfl
        rfl
      · apply Triple.ite
        · intro _
          apply Triple.pure
          rintro s rfl
          exact ⟨fun h => (by cases h), fun _ h => (by cases h), fun _ => .inl hrd,
            .inr ⟨hrd, rfl⟩, fun _ => rfl⟩
        · intro _
          apply Triple.lift_bind
          · intro archived _
            apply Triple.ite
            · intro _
              apply Triple.pure
              rintro s rfl
              exact ⟨fun h => (by cases h), fun _ h => (by cases h), fun _ => .inl hrd,
                .inr ⟨hrd, rfl⟩, fun _ => rfl⟩
            · intro _
              apply Triple.pure
              rintro s rfl
              refine ⟨fun h => ?_, fun source h => ?_, fun _ => .inl hrd, .inr ⟨hrd, rfl⟩,
                fun _ => rfl⟩
              · split at h <;> cases h
              · split at h
                · rename_i heq
                  cases h
                  exact heq
                · cases h
          · -- the only error after the hash has moved
            intro error s he hs
            refine .inr ⟨hrd, ?_, hs⟩
            split_ifs at he
            split at he
            · cases hst : env.archiveStale with
              | error e => rfl
              | ok stale =>
                rw [hst] at he
                cases he
            · cases he

/-- A check that ends the run with an error. -/
def stopsRun (result : CheckExecuteResult) : Bool :=
  match result.error, result.check with
  | some _, _ => true
  | none, .requirement _ => result.success == some false
  | none, .condition _ => false

def isCondition (result : CheckExecuteResult) : Bool :=
  match result.check with
  | .condition _ => true
  | .requirement _ => false

/-- Runners that differ in their operations and the state of the target only. -/
structure SameButReport (start runner : TaskRunner) : Prop where
  task : runner.task = start.task
  hydrater : runner.hydrater = start.hydrater
  cache : runner.cache = start.cache
  reportHash : runner.reportHash = start.reportHash
  untouched : Untouched runner ↔ Untouched start

section

variable {a : TaskRunner} {E : TaskRunnerError → TaskRunner → Prop}

lemma SameButReport.of_eq (h : runner = a) : SameButReport a runner :=
  h ▸ ⟨rfl, rfl, rfl, rfl, Iff.rfl⟩

lemma alike_pushOperation (o : Operation) :
    Triple (SameButReport a) (pushOperation o) (fun _ => SameButReport a) E :=
  Triple.modify (fun _ h => ⟨h.task, h.hydrater, h.cache, h.reportHash, h.untouched⟩)

lemma alike_setTarget (t : TargetState) :
    Triple (SameButReport a) (setTarget t) (fun _ => SameButReport a) E :=
  Triple.modify (fun _ h => ⟨h.task, h.hydrater, h.cache, h.reportHash, h.untouched⟩)

/-- What does not depend on the report stays. -/
lemma triple_of_alike {α : Type} {x : RunM α} {P : TaskRunner → Prop}
    (hP : ∀ runner s, P runner → SameButReport runner s → P s)
    (h : ∀ runner, P runner → Triple (SameButReport runner) x (fun _ => SameButReport runner) E) :
    Triple P x (fun _ => P) E :=
  fun s hs => (h s hs).post (fun _ s' => hP s s' hs) s (.of_eq rfl)

lemma alike_skip : Triple (SameButReport a) skip (fun _ => SameButReport a) E := by
  apply Triple.bind (alike_pushOperation _)
  intro _
  exact alike_setTarget _

lemma alike_skipNoOp : Triple (SameButReport a) skipNoOp (fun _ => SameButReport a) E := by
  apply Triple.get_bind_keep
  intro _ _
  apply Triple.bind (alike_pushOperation _)
  intro _
  exact alike_setTarget _

lemma alike_skipConditional :
    Triple (SameButReport a) skipConditional (fun _ => SameButReport a) E := by
  apply Triple.get_bind_keep
  intro _ _
  apply Triple.bind (alike_pushOperation _)
  intro _
  exact alike_setTarget _

lemma alike_acquireMutex : Triple (SameButReport a) acquireMutex (fun _ => SameButReport a) E := by
  unfold acquireMutex
  apply Triple.get_bind_keep
  intro runner _
  apply Triple.ite
  · intro _
    exact alike_pushOperation _
  · intro _
    exact Triple.pure (fun _ h => h)

lemma hash_spec : Triple (fun s => s = a) (TaskRunner.hash env)
    (fun hash s => ∃ digest, env.digest = .ok digest ∧ digest.hash = hash ∧
      SameButReport { a with reportHash := some hash } s) (fun _ s => s = a) := by
  unfold TaskRunner.hash
  apply Triple.lift_bind _ (fun _ _ _ h => h)
  intro d hd
  apply Triple.bind ((alike_pushOperation (a := a) _).pre (fun _ => .of_eq))
  intro _
  apply Triple.modify_bind (M := SameButReport { a with reportHash := some d.hash })
  · exact fun _ h => ⟨h.task, h.hydrater, h.cache, rfl, h.untouched⟩
  · exact Triple.pure (fun _ h => ⟨d, hd, rfl, h⟩)

/-- The checks change nothing but the report, and say whether the run goes on. -/
lemma executeChecks_spec (t : Target) (results : List CheckExecuteResult) (has met : Bool) :
    Triple (SameButReport a) (executeChecks t results has met)
      (fun skipped s => SameButReport a s ∧ results.all (fun result => !stopsRun result) = true ∧
        skipped = ((has || results.any isCondition) && (met &&
          results.all (fun result => !isCondition result || result.success == some true))))
      (fun _ s => SameButReport a s ∧ results.all (fun result => !stopsRun result) = false) := by
  induction results generalizing has met with
  | nil => exact Triple.pure (fun s hs => ⟨hs, rfl, by simp⟩)
  | cons r results ih =>
    unfold executeChecks
    cases he : r.error with
    | some error => exact Triple.throw (fun s hs => ⟨hs, by simp [stopsRun, he]⟩)
    | none =>
      apply Triple.bind (alike_pushOperation _)
      · intro _
        cases hc : r.check with
        | condition script =>
          refine (ih true _).conseq (fun _ h => h) ?_ ?_
          · rintro skipped s ⟨hs, hall, rfl⟩
            refine ⟨hs, by simpa [stopsRun, he, hc] using hall, ?_⟩
            simp [isCondition, hc, Bool.and_assoc]
          · rintro _ s ⟨hs, hall⟩
            exact ⟨hs, by simp [hall]⟩
        | requirement script =>
          apply Triple.ite
          · intro hf
            exact Triple.throw (fun s hs => ⟨hs, by simp_all [stopsRun]⟩)
          · intro hf
            refine (ih has met).conseq (fun _ h => h) ?_ ?_
            · rintro skipped s ⟨hs, hall, rfl⟩
              refine ⟨hs, by simp_all [stopsRun], ?_⟩
              simp [isCondition, hc]
            · rintro _ s ⟨hs, hall⟩
              exact ⟨hs, by simp [hall]⟩

lemma alike_executeChecks (t : Target) (results : List CheckExecuteResult) (has met : Bool) :
    Keeps (SameButReport a) (executeChecks t results has met) :=
  (executeChecks_spec t results has met).conseq (fun _ h => h) (fun _ _ h => h.1) (fun _ _ h => h.1)

lemma alike_archive : Keeps (SameButReport a) (archive env) := by
  unfold archive
  apply Triple.get_bind_keep
  intro runner _
  apply Triple.ite
  · intro _
    exact Keeps.pure _
  · intro _
    apply Keeps.lift_bind
    intro archived
    apply Triple.bind (alike_pushOperation _)
    intro _
    exact Keeps.pure _

end

lemma wroteOutputs_of_hitFromStorage {hy : OutputHydrater} {env : HydrateEnv} {s : HydrateFrom}
    {state : TaskRunState} {m : Manifest} {re : Bool}
    (h : (hy.hydrate env s hash state).2 = .ok (.hitFromStorage m re)) :
    wroteOutputs s (hy.hydrate env s hash state) := by
  cases s with
  | previousOutput => cases h
  | localArchive | storage s =>
    revert h
    generalize hy.hydrate env _ hash state = r
    rintro h
    obtain ⟨created, outcome⟩ := r
    cases h
    rfl

/-- What hydrating leaves of the runner that `is_cached` has left. -/
structure Wrote (seen : TaskRunner) (wrote : Bool) (runner : TaskRunner) : Prop where
  task : runner.task = seen.task
  reportHash : runner.reportHash = seen.reportHash
  cacheHash : runner.cache.hash = seen.cache.hash
  exitCode : Untouched runner → runner.cache.exitCode = seen.cache.exitCode
  untouched : Untouched runner ↔ Untouched seen ∧ wrote = false

section

variable {seen s : TaskRunner} {wrote : Bool} {E : TaskRunnerError → TaskRunner → Prop}

lemma Wrote.of_alike (h : Wrote seen wrote runner) (hs : SameButReport runner s) :
    Wrote seen wrote s where
  task := hs.task.trans h.task
  reportHash := hs.reportHash.trans h.reportHash
  cacheHash := by rw [hs.cache, h.cacheHash]
  exitCode hu := by rw [hs.cache, h.exitCode (hs.untouched.mp hu)]
  untouched := hs.untouched.trans h.untouched

lemma wrote_pushOperation (o : Operation) :
    Triple (Wrote seen wrote) (pushOperation o) (fun _ => Wrote seen wrote) E :=
  triple_of_alike (fun _ _ => Wrote.of_alike) fun _ _ => alike_pushOperation o

lemma wrote_setTarget (t : TargetState) :
    Triple (Wrote seen wrote) (setTarget t) (fun _ => Wrote seen wrote) E :=
  triple_of_alike (fun _ _ => Wrote.of_alike) fun _ _ => alike_setTarget t

lemma wrote_hydrated (seen : TaskRunner) (wrote : Bool) :
    Wrote seen wrote { seen with hydrated := seen.hydrated || wrote } where
  task := rfl
  reportHash := rfl
  cacheHash := rfl
  exitCode _ := rfl
  untouched := by
    rw [Untouched, Untouched, or_eq_false_iff]
    exact and_assoc.symm

/-- Outputs that are found are written, except for those of the previous run. -/
lemma hydrate_spec (env : RunEnv) (hash : String) (a : TaskRunner) :
    Triple (fun s => s = a) (hydrate env hash)
      (fun found s => ∃ answer seen wrote, Answered env hash a answer seen ∧ Wrote seen wrote s ∧
        (answer = none → found = false ∧ wrote = false) ∧
        (found = true → wrote = false → answer = some .previousOutput) ∧
        (found = false → wrote = true → ∃ source created outcome, answer = some source ∧
          seen.hydrater.hydrate env.hydration source hash seen.state = (created, .ok outcome) ∧
          (outcome = .missed ∨ outcome = .skipped) ∧ created ≠ []))
      (fun _ s => s = a ∨ env.mode.isReadable ∧ env.archiveStale.isOk = false ∧
          s = withHash hash a ∨
        ∃ source seen wrote, Answered env hash a (some source) seen ∧ Wrote seen wrote s ∧
          ((seen.hydrater.hydrate env.hydration source hash seen.state).2.isOk = false ∨
            env.readLogs.isOk = false ∨ env.hydratedLogs.isOk = false)) := by
  unfold hydrate
  apply Triple.bind_at ((isCached_spec env hash a).conseq (fun _ h => h) (fun _ _ h => h)
    (fun _ _ h => h.imp_right .inl))
  intro answer seen hseen
  cases answer with
  | none =>
    apply Triple.bind ((alike_pushOperation (a := seen) _).pre (fun _ => .of_eq))
    intro _
    refine Triple.pure (fun s hs => ⟨none, seen, false, hseen, ?_, by simp, by simp, by simp⟩)
    exact (wrote_hydrated seen false).of_alike (by simpa using hs)
  | some source =>
    apply Triple.get_bind
    rintro runner rfl
    generalize hr : runner.hydrater.hydrate env.hydration source hash runner.state = result
    obtain ⟨created, outcome⟩ := result
    have fails (s : TaskRunner) (hs : Wrote runner (wroteOutputs source (created, outcome)) s)
        (h : outcome.isOk = false ∨ env.readLogs.isOk = false ∨ env.hydratedLogs.isOk = false) :
        ∃ source seen wrote, Answered env hash a (some source) seen ∧ Wrote seen wrote s ∧
          ((seen.hydrater.hydrate env.hydration source hash seen.state).2.isOk = false ∨
            env.readLogs.isOk = false ∨ env.hydratedLogs.isOk = false) :=
      ⟨source, runner, _, hseen, hs, by rwa [hr]⟩
    apply Triple.modify_bind (M := fun s => Wrote runner (wroteOutputs source (created, outcome)) s)
    · rintro s rfl
      exact wrote_hydrated _ _
    apply Triple.lift_bind _ (fun _ s he hs => .inr (.inr (fails s hs (.inl (by
      rw [show outcome = _ from he]; rfl)))))
    rintro o rfl
    cases o with
    | skipped | missed =>
      apply Triple.bind (wrote_pushOperation _)
      intro _
      refine Triple.pure (fun s hs => ⟨_, runner, _, hseen, hs, by simp, by simp, fun _ hw => ?_⟩)
      refine ⟨source, created, _, rfl, hr, by simp, ?_⟩
      rintro rfl
      cases source <;> cases hw
    | hit =>
      apply Triple.lift_bind _ (fun _ s he hs =>
        .inr (.inr (fails s hs (.inr (.inl (by rw [he]; rfl))))))
      intro _ _
      apply Triple.bind (wrote_pushOperation _)
      intro _
      apply Triple.bind (wrote_setTarget _)
      intro _
      refine Triple.pure (fun s hs => ⟨_, runner, _, hseen, hs, by simp, fun _ hw => ?_, by simp⟩)
      cases source with
      | previousOutput => rfl
      | localArchive | storage => cases hw
    | hitFromStorage m remote =>
      have hw : wroteOutputs source (created, .ok (.hitFromStorage m remote)) = true := by
        rw [← hr]
        exact wroteOutputs_of_hitFromStorage (by rw [hr])
      rw [hw] at fails ⊢
      apply Triple.bind (M := fun _ => Wrote runner true)
      · unfold persistState
        apply Triple.modify_bind (M := Wrote runner true)
        · intro s hs
          have hu : ¬ Untouched s := fun h => by cases (hs.untouched.mp h).2
          exact ⟨hs.task, hs.reportHash, hs.cacheHash, fun h => absurd h hu, hs.untouched⟩
        · exact Triple.lift (fun _ _ _ h => h) (fun _ s he hs =>
            .inr (.inr (fails s hs (.inr (.inr (by rw [he]; rfl))))))
      intro _
      apply Triple.bind (wrote_pushOperation _)
      intro _
      apply Triple.bind (wrote_setTarget _)
      intro _
      exact Triple.pure (fun s hs => ⟨_, runner, true, hseen, hs, by simp, by simp, by simp⟩)

end

/-- After `hash` is generated, the run is reported under it, the saved hash satisfies `K`, and the
exit code is that of `start` until outputs are written. -/
structure Tracks (start : TaskRunCacheState) (hash : String) (K : String → Prop)
    (runner : TaskRunner) : Prop where
  reportHash : runner.reportHash = some hash
  cacheHash : K runner.cache.hash
  exitCode : Untouched runner → runner.cache.exitCode = start.exitCode

section

variable {a : TaskRunCacheState} {K : String → Prop}

lemma Tracks.of_alike {s : TaskRunner} (h : Tracks a hash K runner) (hs : SameButReport runner s) :
    Tracks a hash K s where
  reportHash := hs.reportHash.trans h.reportHash
  cacheHash := by
    rw [hs.cache]
    exact h.cacheHash
  exitCode hu := by rw [hs.cache, h.exitCode (hs.untouched.mp hu)]

lemma tracks_of_alike {α : Type} {x : RunM α} (h : ∀ runner, Keeps (SameButReport runner) x) :
    Keeps (Tracks a hash K) x :=
  triple_of_alike (fun _ _ => Tracks.of_alike) fun runner hr =>
    (h runner).conseq (fun _ h => h) (fun _ _ h => h) (fun _ _ => hr.of_alike)

lemma tracks_persistState (logs : Except TaskRunnerError Unit) (o : Operation) :
    Triple (fun runner => Tracks a hash K runner ∧ ¬ Untouched runner)
      (persistState logs o) (fun _ => Tracks a hash K)
      (fun _ => Tracks a hash K) := by
  unfold persistState
  apply Triple.modify_bind (M := Tracks a hash K)
  · rintro runner ⟨h, ht⟩
    exact ⟨h.reportHash, h.cacheHash, fun hu => absurd hu ht⟩
  · exact Triple.lift (fun _ _ _ h => h) (fun _ _ _ h => h)

lemma attemptLoop_ok {hash : Option String} {as : Nat → Attempt} {remaining i : Nat}
    {d : List Operation} {r : TaskExecuteResult}
    (h : (attemptLoop hash as remaining i d).2 = .ok r) :
    (attemptLoop hash as remaining i d).1 := by
  induction remaining generalizing i d with
  | zero =>
    unfold attemptLoop at h ⊢
    cases hs : (as i).onTaskStarted <;> cases hf : (as i).onTaskFinished <;>
      cases ho : (as i).outcome <;> simp_all
  | succ remaining ih =>
    unfold attemptLoop at h ⊢
    cases hs : (as i).onTaskStarted <;> cases hf : (as i).onTaskFinished <;>
      cases ho : (as i).outcome <;> simp_all <;> split_ifs at h ⊢ <;> simp_all

lemma tracks_executeCommand (env : RunEnv) :
    Keeps (Tracks a hash K) (executeCommand env) := by
  unfold executeCommand
  apply Keeps.lift_bind
  intro _
  apply Triple.bind (tracks_of_alike fun _ => alike_acquireMutex)
  intro _
  apply Triple.get_bind
  intro runner hr
  -- from here on the command counts as run, as soon as there is a result
  let executed := TaskExecutor.execute runner.task runner.reportHash env.attempts
  apply Triple.modify_bind (M := fun s => Tracks a hash K s ∧ (executed.1 → ¬ Untouched s))
  · rintro s rfl
    refine ⟨⟨hr.reportHash, hr.cacheHash, ?_⟩, ?_⟩
    · rintro ⟨he, hh⟩
      exact hr.exitCode ⟨(or_eq_false_iff.mp he).1, hh⟩
    · rintro hrn ⟨he, -⟩
      have := (or_eq_false_iff.mp he).2
      rw [show (TaskExecutor.execute s.task s.reportHash env.attempts).1 from hrn] at this
      cases this
  · apply Triple.lift_bind _ (fun _ _ _ h => h.1)
    intro r hrs
    have hrn : executed.1 := attemptLoop_ok hrs
    apply Triple.bind (M := fun _ => Tracks a hash K)
    · unfold persistLastAttempt
      cases getLastExecution r.attempts with
      | none => exact Triple.pure (fun _ h => h.1)
      | some lastAttempt =>
        exact (tracks_persistState _ _).pre (fun _ h => ⟨h.1, h.2 hrn⟩)
    · intro _
      apply Triple.modify_bind (M := Tracks a hash K)
        (fun _ h => ⟨h.reportHash, h.cacheHash, h.exitCode⟩)
      apply Triple.bind (tracks_of_alike fun _ => alike_setTarget _)
      intro _
      apply Keeps.lift_bind
      intro _
      apply Triple.get_bind_keep
      intro final _
      apply Triple.ite
      · intro _
        exact Keeps.throw _
      · intro _
        exact Keeps.pure _

lemma tracks_execute (env : RunEnv) : Keeps (Tracks a hash K) (execute env) := by
  unfold execute
  apply Triple.get_bind_keep
  intro runner _
  apply Triple.ite
  · intro _
    exact tracks_of_alike fun _ => alike_skipNoOp
  · intro _
    apply Keeps.lift_bind
    intro checks
    apply Triple.bind (tracks_of_alike fun _ => alike_executeChecks _ _ _ _)
    intro skipped
    apply Triple.ite
    · intro _
      exact tracks_of_alike fun _ => alike_skipConditional
    · intro _
      exact tracks_executeCommand env

end

def HashKept (env : RunEnv) (start : TaskRunCacheState) (hash saved : String) : Prop :=
  saved = start.hash ∨ env.mode.isReadable = true ∧ saved = hash

def HashMoved (env : RunEnv) (start : TaskRunCacheState) (hash saved : String) : Prop :=
  HashKept env start hash saved ∧ (env.mode.isReadable = true → saved = hash)

lemma tracks_hydrate (env : RunEnv) (hash : String) (a : TaskRunCacheState) :
    Triple (fun runner => runner.cache = a ∧ Untouched runner ∧ runner.reportHash = some hash)
      (hydrate env hash) (fun _ => Tracks a hash (HashMoved env a hash))
      (fun _ runner => Tracks a hash (HashKept env a hash) runner ∧
        (¬ Untouched runner → env.mode.isReadable → runner.cache.hash = hash)) := by
  rintro runner ⟨rfl, hun, hr⟩
  -- the state that `is_cached` leaves is known exactly
  have hk (s : TaskRunner) (hs : s = runner ∨ env.mode.isReadable ∧ s = withHash hash runner) :
      HashKept env runner.cache hash s.cache.hash ∧ s.cache.exitCode = runner.cache.exitCode ∧
        (Untouched s ↔ Untouched runner) ∧ s.reportHash = runner.reportHash := by
    rcases hs with rfl | ⟨hrd, rfl⟩
    · exact ⟨.inl rfl, rfl, Iff.rfl, rfl⟩
    · exact ⟨.inr ⟨hrd, rfl⟩, rfl, Iff.rfl, rfl⟩
  have moved {answer : Option HydrateFrom} {seen s : TaskRunner} {wrote : Bool}
      (hseen : Answered env hash runner answer seen) (hs : Wrote seen wrote s) :
      Tracks runner.cache hash (HashMoved env runner.cache hash) s := by
    obtain ⟨hhs, hex, -, hrp⟩ := hk seen hseen.moved
    refine ⟨hs.reportHash.trans (hrp.trans hr), ?_, fun hu => (hs.exitCode hu).trans hex⟩
    rw [hs.cacheHash]
    exact ⟨hhs, hseen.cacheHash⟩
  refine (hydrate_spec env hash runner).conseq (fun _ h => h) ?_ ?_ runner rfl
  · rintro found s ⟨answer, seen, wrote, hseen, hs, -⟩
    exact moved hseen hs
  · intro _ s h
    rcases or_assoc.mpr h with h | ⟨source, seen, wrote, hseen, hs, -⟩
    · obtain ⟨hhs, hex, hu, hrp⟩ := hk s (h.imp_right (fun h => ⟨h.1, h.2.2⟩))
      exact ⟨⟨hrp.trans hr, hhs, fun _ => hex⟩, fun h => absurd (hu.mpr hun) h⟩
    · have h := moved hseen hs
      exact ⟨⟨h.reportHash, h.cacheHash.1, h.exitCode⟩, fun _ => h.cacheHash.2⟩

/-- A run looks for outputs and executes its command once it has a hash. -/
lemma internalRun_rule {a : TaskRunner} {context : ActionContext} {Q E : TaskRunner → Prop}
    (hstart : E a) (hskips : ∀ s, SameButReport a s → Q s)
    (hruns : isDependenciesComplete a.task context a.task.deps = .ok true →
      ∀ digest, env.digest = .ok digest →
      ∀ s, SameButReport { a with reportHash := some digest.hash } s →
      if a.isCacheEnabled env then
        Triple (fun s' => s' = s) (hydrate env digest.hash) (fun found s =>
          if found then Q s
          else Triple (fun s' => s' = s) (execute env) (fun _ s =>
            Triple (fun s' => s' = s) (archive env) (fun _ => Q) (fun _ => E)) (fun _ => E))
          (fun _ => E)
      else Triple (fun s' => s' = s) (execute env) (fun _ => Q) (fun _ => E)) :
    Triple (fun s => s = a) (internalRun env context) (fun _ => Q) (fun _ => E) := by
  unfold internalRun
  apply Triple.get_bind
  rintro runner rfl
  apply Triple.lift_bind _ (fun _ s _ hs => hs ▸ hstart)
  intro complete hcm
  apply Triple.ite
  · intro _
    apply Triple.bind (alike_skip.pre (fun _ => .of_eq))
    intro _
    exact Triple.pure hskips
  · intro hnc
    apply Triple.bind_at (hash_spec.conseq (fun _ h => h) (fun _ _ h => h)
      (fun _ _ h => h ▸ hstart))
    rintro _ s ⟨digest, hd, rfl, hs⟩
    have h := hruns (by rw [hcm]; simpa using hnc) digest hd s hs
    apply Triple.ite
    · intro hen
      rw [if_pos hen] at h
      apply Triple.bind_at h
      intro found s hf
      apply Triple.ite
      · rintro rfl
        exact Triple.pure (fun _ hs => hs ▸ hf)
      · intro hnf
        rw [if_neg hnf] at hf
        apply Triple.bind_at hf
        intro _ s hs
        apply Triple.bind hs
        intro _
        exact Triple.pure (fun _ h => h)
    · intro hen
      rw [if_neg hen] at h
      apply Triple.bind h
      intro _
      exact Triple.pure (fun _ h => h)

/-- What a run comes to: a touched runner has a hash, and the saved hash stays or moves to it. -/
structure Finished (env : RunEnv) (context : ActionContext) (task : Task)
    (start : TaskRunCacheState) (runner : TaskRunner) : Prop where
  exitCode : Untouched runner → runner.cache.exitCode = start.exitCode
  cacheHash : runner.cache.hash = start.hash ∨ env.mode.isReadable = true ∧
    (task.options.cache.isEnabled && env.vcsEnabled) = true ∧
    runner.reportHash = some runner.cache.hash
  touchedHash : ¬ Untouched runner → (task.options.cache.isEnabled && env.vcsEnabled) = true →
    env.mode.isReadable = true → runner.reportHash = some runner.cache.hash
  reported : runner.reportHash = none ∧ Untouched runner ∨
    isDependenciesComplete task context task.deps = .ok true ∧
      ∃ digest, env.digest = .ok digest ∧ runner.reportHash = some digest.hash

lemma finished_internalRun (env : RunEnv) (context : ActionContext) (a : TaskRunner)
    (hst : Untouched a) (hrep : a.reportHash = none) :
    Triple (fun runner => runner = a) (internalRun env context)
      (fun _ => Finished env context a.task a.cache)
      (fun _ => Finished env context a.task a.cache) := by
  have unchanged (s : TaskRunner) (hs : SameButReport a s) :
      Finished env context a.task a.cache s := by
    have hu : Untouched s := hs.untouched.mpr hst
    exact ⟨fun _ => by rw [hs.cache], .inl (by rw [hs.cache]), fun h => absurd hu h,
      .inl ⟨hs.reportHash.trans hrep, hu⟩⟩
  refine internalRun_rule (unchanged a (.of_eq rfl)) unchanged (fun hdeps d hd hashed hh => ?_)
  split_ifs with hen
  · -- caching is enabled: whatever happens next, the saved hash has moved to this run
    have kept (s : TaskRunner)
        (h : Tracks a.cache d.hash (HashKept env a.cache d.hash) s)
        (ht : ¬ Untouched s → env.mode.isReadable → s.cache.hash = d.hash) :
        Finished env context a.task a.cache s := by
      refine ⟨h.exitCode, h.cacheHash.imp_right (fun hm => ⟨hm.1, hen, ?_⟩), fun hu _ hr => ?_,
        .inr ⟨hdeps, d, hd, h.reportHash⟩⟩
      · rw [h.reportHash, hm.2]
      · rw [h.reportHash, ht hu hr]
    have finish (s : TaskRunner)
        (h : Tracks a.cache d.hash (HashMoved env a.cache d.hash) s) :
        Finished env context a.task a.cache s :=
      kept s ⟨h.reportHash, h.cacheHash.1, h.exitCode⟩ (fun _ => h.cacheHash.2)
    refine (tracks_hydrate env d.hash a.cache).conseq ?_ ?_ (fun _ s h => kept s h.1 h.2)
    · rintro s rfl
      exact ⟨hh.cache, hh.untouched.mpr hst, hh.reportHash⟩
    · intro found s hs
      split_ifs
      · exact finish s hs
      · refine (tracks_execute env).conseq (fun _ h => h ▸ hs) (fun _ s hs => ?_) (fun _ => finish)
        exact (tracks_of_alike fun _ => alike_archive).conseq (fun _ h => h ▸ hs) (fun _ => finish)
          (fun _ => finish)
  · -- caching is disabled: the saved hash is never looked at
    have finish (s : TaskRunner)
        (h : Tracks a.cache d.hash (fun saved => saved = a.cache.hash) s) :
        Finished env context a.task a.cache s :=
      ⟨h.exitCode, .inl h.cacheHash, fun _ h => absurd h hen, .inr ⟨hdeps, d, hd, h.reportHash⟩⟩
    refine (tracks_execute env).conseq ?_ (fun _ => finish) (fun _ => finish)
    rintro s rfl
    exact ⟨hh.reportHash, by rw [hh.cache], fun _ => by rw [hh.cache]⟩

def hydraterOf (task : Task) (env : RunEnv) : OutputHydrater :=
  ⟨task, env.workspaceRoot, env.taskOutputGlobset⟩

/-- The outputs of a manifest are declared, and can be fetched and written. -/
structure ManifestRestorable (hydrater : OutputHydrater) (env : HydrateEnv) (manifest : Manifest) :
    Prop where
  declared : hydrater.validateOutputPaths manifest = .ok ()
  daemon : ∀ response, env.daemon = some response → response.isOk = true
  unpacked : ∀ useLocal useRemote,
    (hydrater.hydrateAndUnpack env useLocal useRemote manifest).2.isOk = true

/-- Nothing of a run fails but its checks and its command. -/
structure StepsSucceed (task : Task) (env : RunEnv) : Prop where
  archiveStale : env.archiveStale.isOk = true
  existing : env.hydration.getOutputFiles.isOk = true
  restorable : ∀ source, env.loadManifest = .ok (some source) →
    ManifestRestorable (hydraterOf task env) env.hydration source.manifest
  readLogs : env.readLogs.isOk = true
  hydratedLogs : env.hydratedLogs.isOk = true
  executedLogs : env.executedLogs.isOk = true
  events : ∀ index, (env.attempts index).onTaskStarted = .ok () ∧
    (env.attempts index).onTaskFinished = .ok ()
  created : task.isBuildType = true → hasOutputsBeenCreated task env.outputsAfter false = .ok true
  storeOutputs : env.storeOutputs.isOk = true
  saveState : env.saveState.isOk = true
  completed : env.onTaskCompleted.isOk = true

/-- Whether the checks let the command run: none of them ends the run, and it is not the case that
there are conditions and all of them are met. -/
def checksPass (results : List CheckExecuteResult) : Bool :=
  results.all (fun result => !stopsRun result) && !(results.any isCondition &&
    results.all (fun result => !isCondition result || result.success == some true))

/-- Whether a run that comes to its command starts it. -/
def startsCommand (task : Task) (env : RunEnv) : Bool :=
  !task.isNoOp && env.checks.toOption.any checksPass && env.buildCommand.isOk

/-- An attempt that is made succeeds, and none before it crashes. -/
def CommandSucceeds (task : Task) (env : RunEnv) : Prop :=
  ∃ retries ≤ (task.options.retryCount + 1) % 256 - 1,
    (env.attempts (1 + retries)).outcome.success = true ∧
    ∀ earlier < retries, errorOf (env.attempts (1 + earlier)).outcome = none

section

variable {a : TaskRunner} {task : Task}

/-- A run that does not start its command leaves all outputs as they are. -/
lemma alike_execute (h : startsCommand a.task env = false) :
    Keeps (SameButReport a) (execute env) := by
  unfold execute
  apply Triple.get_bind
  intro runner hr
  have keep {x : RunM Unit} (hx : Keeps (SameButReport a) x) :
      Triple (fun s => s = runner) x (fun _ => SameButReport a) (fun _ => SameButReport a) :=
    hx.pre (fun _ hs => hs ▸ hr)
  apply Triple.ite
  · intro _
    exact keep alike_skipNoOp
  · intro hno
    apply keep
    apply Triple.lift_bind _ (fun _ _ _ h => h)
    intro checks hc
    apply Triple.bind ((executeChecks_spec _ _ _ _).conseq (fun _ h => h) (fun _ _ h => h)
      (fun _ _ h => h.1))
    intro skipped
    apply Triple.ite
    · intro _
      exact alike_skipConditional.pre (fun _ h => h.1)
    · -- the checks pass, so the command cannot be built
      rintro hsk s ⟨hs, hall, rfl⟩
      rw [hr.task] at hno
      have hb : env.buildCommand.isOk = false := by
        have hp : checksPass checks = true := by
          simpa only [checksPass, hall, Bool.true_and, Bool.false_or, Bool.not_eq_true,
            Bool.not_eq_true'] using hsk
        simpa [startsCommand, hno, hc, Except.toOption, hp] using h
      cases hbc : env.buildCommand with
      | ok => rw [hbc] at hb; cases hb
      | error e =>
        unfold executeCommand
        rw [hbc]
        exact hs

lemma exitCode_attempt {o : AttemptOutcome} (h : o.success = false) :
    ∃ code, o.attempt.getExitCode = some code ∧ code ≠ 0 := by
  cases o with
  | output status =>
    refine ⟨_, rfl, ?_⟩
    rcases status with _ | _ | code <;> simp_all [AttemptOutcome.success]
  | timedOut | crashed => exact ⟨_, rfl, by decide⟩

lemma hasFailed_attempt (o : AttemptOutcome) : o.attempt.hasFailed = !o.success := by
  cases o with
  | output status =>
    by_cases h : status = some (some 0) <;>
      simp [AttemptOutcome.attempt, AttemptOutcome.success, Operation.hasFailed, h]
  | timedOut | crashed => rfl

/-- The command ends with the outcome of its last attempt. -/
lemma execute_outcome (hev : ∀ index, (env.attempts index).onTaskStarted = .ok () ∧
      (env.attempts index).onTaskFinished = .ok ()) (task : Task) (reported : Option String) :
    ∃ before last, TaskExecutor.execute task reported env.attempts =
        (true, .ok (resultOf reported before last)) ∧
      (CommandSucceeds task env → last.success = true) := by
  let outcomes := fun index => (env.attempts index).outcome
  have ha : env.attempts = attemptsOf outcomes := by
    funext index
    have h := hev index
    simp only [attemptsOf, outcomes]
    generalize env.attempts index = attempt at h
    obtain ⟨started, outcome, finished⟩ := attempt
    obtain ⟨rfl, rfl⟩ := h
    rfl
  obtain ⟨k, hk, hb, hl, before, -, he⟩ :=
    attemptLoop_spec reported outcomes ((task.options.retryCount + 1) % 256 - 1) 1 []
  refine ⟨before, outcomes (1 + k), ?_, ?_⟩
  · rw [ha]
    exact he
  · rintro ⟨n, hn, hs, hc⟩
    rcases Nat.lt_trichotomy n k with hlt | rfl | hgt
    · exact absurd (.inl hs) (hb n hlt)
    · exact hs
    · rcases hl.resolve_left (by omega) with h | h
      · exact h
      · have := hc k hgt
        simp [outcomes, this] at h

lemma isOk_iff {ε α : Type} {x : Except ε α} : x.isOk = true ↔ ∃ a, x = .ok a := by
  cases x <;> simp [Except.isOk, Except.toBool]

/-- The command was run, and the exit code of its last attempt is saved. -/
structure Persisted (task : Task) (last : AttemptOutcome) (runner : TaskRunner) : Prop where
  task : runner.task = task
  executed : runner.executed = true
  exitCode : last.success = false → runner.cache.exitCode ≠ 0

lemma persistLastAttempt_course (hlogs : env.executedLogs.isOk = true) (before : List Operation)
    (last : AttemptOutcome) {E : TaskRunnerError → TaskRunner → Prop} :
    Triple (fun s => s.task = task ∧ s.executed = true)
      (persistLastAttempt env (before ++ [last.attempt]))
      (fun _ => Persisted task last) E := by
  obtain ⟨_, hlogs⟩ := isOk_iff.mp hlogs
  unfold persistLastAttempt
  rw [getLastExecution_append_attempt]
  dsimp only
  unfold persistState
  apply Triple.modify_bind (M := Persisted task last)
  · intro s hs
    refine ⟨hs.1, hs.2, fun hf => ?_⟩
    obtain ⟨code, hc, hne⟩ := exitCode_attempt hf
    simp only [hc, Option.getD_some]
    exact hne
  · exact Triple.lift (fun _ _ _ h => h) (fun _ _ he _ => by rw [hlogs] at he; cases he)

/-- A command that is started is run, and a run that fails after that leaves its exit code. -/
lemma executeCommand_course (hsteps : StepsSucceed task env) (hb : env.buildCommand.isOk = true) :
    Triple (fun s => s.task = task) (executeCommand env)
      (fun _ s => s.task = task ∧ s.executed = true)
      (fun _ s => s.executed = true ∧ s.cache.exitCode ≠ 0 ∧ ¬ CommandSucceeds task env) := by
  obtain ⟨_, hb⟩ := isOk_iff.mp hb
  unfold executeCommand
  apply Triple.lift_bind _ (fun _ _ he _ => by rw [hb] at he; cases he)
  intro _ _
  apply Triple.bind (triple_of_alike (P := fun s => s.task = task) (fun _ _ h hs => hs.task.trans h)
    fun _ _ => alike_acquireMutex)
  intro _
  apply Triple.get_bind
  intro runner hr
  obtain ⟨before, last, he, hsc⟩ := execute_outcome hsteps.events runner.task runner.reportHash
  rw [hr] at hsc
  dsimp only
  rw [he]
  apply Triple.modify_bind (M := fun s => s.task = task ∧ s.executed = true)
  · rintro s rfl
    exact ⟨hr, Bool.or_true _⟩
  · apply Triple.lift_bind _ (fun _ _ he _ => by cases he)
    intro r hres
    cases hres
    have failed (s : TaskRunner) (hs : Persisted task last s) (hf : last.success = false) :
        s.executed = true ∧ s.cache.exitCode ≠ 0 ∧ ¬ CommandSucceeds task env :=
      ⟨hs.executed, hs.exitCode hf, fun h => by rw [hsc h] at hf; cases hf⟩
    apply Triple.bind (persistLastAttempt_course hsteps.executedLogs before last)
    intro _
    apply Triple.modify_bind (M := fun s => Persisted task last s ∧
      getLastExecution s.operations = some last.attempt)
    · intro s hs
      refine ⟨⟨hs.task, hs.executed, hs.exitCode⟩, ?_⟩
      change getLastExecution (s.operations ++ (before ++ [last.attempt])) = _
      rw [← List.append_assoc, getLastExecution_append_attempt]
    · apply Triple.bind (M := fun _ s => Persisted task last s ∧
        getLastExecution s.operations = some last.attempt)
      · exact Triple.modify (fun s h => ⟨⟨h.1.task, h.1.executed, h.1.exitCode⟩, h.2⟩)
      intro _
      apply Triple.lift_bind
      · intro _ _
        apply Triple.get_bind_keep
        intro final hfin
        apply Triple.ite
        · intro hf
          rw [hfin.2, Option.any_some, hasFailed_attempt, Bool.not_eq_true'] at hf
          exact Triple.throw (fun s hs => failed s hs.1 hf)
        · intro _
          exact Triple.pure (fun s hs => ⟨hs.1.task, hs.1.executed⟩)
      · intro e s he hs
        apply failed s hs.1
        cases last with
        | crashed => rfl
        | output | timedOut => cases he

lemma execute_course (hsteps : StepsSucceed task env) (hst : startsCommand task env = true) :
    Triple (fun s => s.task = task) (execute env)
      (fun _ s => s.task = task ∧ s.executed = true)
      (fun _ s => s.executed = true ∧ s.cache.exitCode ≠ 0 ∧ ¬ CommandSucceeds task env) := by
  simp only [startsCommand, Bool.and_eq_true, Bool.not_eq_true', Option.any_eq_true] at hst
  obtain ⟨⟨hno, checks, hc, hp⟩, hb⟩ := hst
  have hpass := hp
  simp only [checksPass, Bool.and_eq_true, Bool.not_eq_true'] at hpass
  unfold execute
  apply Triple.get_bind
  rintro runner hr
  rw [hr, if_neg (by simp [hno])]
  apply Triple.lift_bind _ (fun e s he _ => by rw [he] at hc; cases hc)
  intro results hres
  rw [hres] at hc
  cases hc
  apply Triple.bind ((executeChecks_spec (a := runner) _ _ _ _).conseq
    (fun _ => SameButReport.of_eq) (fun _ _ h => h) (fun _ s h => by rw [hpass.1] at h; cases h.2))
  intro skipped
  apply Triple.ite
  · rintro hsk s ⟨-, -, rfl⟩
    simp [hpass.2] at hsk
  · intro _
    exact (executeCommand_course hsteps hb).pre (fun s hs => hs.1.task.trans hr)

variable (hash) in
lemma unpackLocalArchive_ok {hydration : HydrateEnv} (h : hydration.getOutputFiles.isOk = true)
    (state : TaskRunState) :
    ∃ outcome, OutputHydrater.unpackLocalArchive hydration hash state = .ok outcome := by
  obtain ⟨files, hf⟩ := isOk_iff.mp h
  unfold OutputHydrater.unpackLocalArchive OutputHydrater.deleteExistingOutputs
  rw [hf]
  split_ifs
  · exact ⟨_, rfl⟩
  · exact ⟨_, rfl⟩
  · exact ⟨_, rfl⟩

lemma hydrateAndUnpack_none {hydrater : OutputHydrater} {hydration : HydrateEnv}
    {useLocal useRemote : Bool} {manifest : Manifest} {created : List CreatedOutput}
    (h : hydrater.hydrateAndUnpack hydration useLocal useRemote manifest = (created, .ok none)) :
    created = [] := by
  unfold OutputHydrater.hydrateAndUnpack at h
  split at h
  · cases h
  · cases h
    rfl
  · dsimp only at h
    split at h <;> cases h

variable (hash) in
/-- A hydration that can only succeed or miss writes nothing if it misses. -/
lemma hydrate_outcome (hsteps : StepsSucceed task env) {source : HydrateFrom}
    (hsrc : ∀ found, source = .storage found → env.loadManifest = .ok (some found))
    (state : TaskRunState) :
    ∃ created outcome, (hydraterOf task env).hydrate env.hydration source hash state =
        (created, .ok outcome) ∧
      (outcome = .missed ∨ outcome = .skipped → created = []) := by
  obtain ⟨archived, ha⟩ := unpackLocalArchive_ok hash hsteps.existing state
  cases source with
  | previousOutput => exact ⟨[], .hit, rfl, fun _ => rfl⟩
  | localArchive => exact ⟨[], archived, by simp [OutputHydrater.hydrate, ha], fun _ => rfl⟩
  | storage found =>
    have hr := hsteps.restorable found (hsrc found rfl)
    obtain ⟨files, hf⟩ := isOk_iff.mp hsteps.existing
    unfold OutputHydrater.hydrate
    dsimp only
    split_ifs
    · exact ⟨[], archived, by rw [ha], fun _ => rfl⟩
    · exact ⟨[], .skipped, rfl, fun _ => rfl⟩
    · rw [hr.declared, OutputHydrater.deleteExistingOutputs, hf]
      dsimp only [Except.map]
      generalize hu : (hydraterOf task env).hydrateAndUnpack env.hydration _ _ found.manifest = u
      have hok := hr.unpacked (state.localCasEnabled && state.localCacheReadable)
        state.remoteCacheReadable
      rw [hu] at hok
      obtain ⟨created, result⟩ := u
      obtain ⟨restored, rfl⟩ := isOk_iff.mp hok
      cases hd : env.hydration.daemon with
      | none =>
        cases restored with
        | none => exact ⟨created, .missed, rfl, fun _ => hydrateAndUnpack_none hu⟩
        | some restored => exact ⟨created, _, rfl, by simp⟩
      | some response =>
        obtain ⟨_, rfl⟩ := isOk_iff.mp (hr.daemon response hd)
        dsimp only
        unfold OutputHydrater.hydrateTaskOutputs
        dsimp only
        rw [hu]
        cases restored with
        | none => exact ⟨created, .missed, rfl, fun _ => hydrateAndUnpack_none hu⟩
        | some restored => exact ⟨created, _, rfl, by simp⟩

lemma hydrate_course (hsteps : StepsSucceed task env) (htask : a.task = task)
    (hhy : a.hydrater = hydraterOf task env) :
    Triple (fun s => s = a) (hydrate env hash)
      (fun found s => s.task = task ∧
        (found = true → Untouched s → s.cache.hash = a.cache.hash) ∧
        (found = false → Untouched a → Untouched s))
      (fun _ s => s = a) := by
  have same {answer : Option HydrateFrom} {seen : TaskRunner}
      (hseen : Answered env hash a answer seen) : seen.task = task ∧
        seen.hydrater = hydraterOf task env ∧ (Untouched seen ↔ Untouched a) := by
    rcases hseen.moved with rfl | ⟨-, rfl⟩
    · exact ⟨htask, hhy, Iff.rfl⟩
    · exact ⟨htask, hhy, Iff.rfl⟩
  refine (hydrate_spec env hash a).conseq (fun _ h => h) ?_ ?_
  · rintro found s ⟨answer, seen, wrote, hseen, hs, -, hfound, hmissed⟩
    obtain ⟨hst, hsh, hsu⟩ := same hseen
    refine ⟨hs.task.trans hst, fun hf hu => ?_, fun hf hu => hs.untouched.mpr ⟨hsu.mpr hu, ?_⟩⟩
    · rw [hs.cacheHash, (hseen.previous (hfound hf (hs.untouched.mp hu).2)).2.2]
    · by_contra hw
      obtain ⟨source, created, outcome, rfl, hr, hm, hne⟩ :=
        hmissed hf (Bool.not_eq_false _ ▸ hw)
      obtain ⟨_, _, ho, hno⟩ := hydrate_outcome hash hsteps
        (fun found h => hseen.stored found (h ▸ rfl)) seen.state
      rw [hsh, ho] at hr
      cases hr
      exact hne (hno hm)
  · rintro _ s (rfl | ⟨-, h, -⟩ | ⟨source, seen, wrote, hseen, -, h⟩)
    · rfl
    · rw [hsteps.archiveStale] at h
      cases h
    · obtain ⟨_, _, ho, -⟩ := hydrate_outcome hash hsteps
        (fun found h => hseen.stored found (h ▸ rfl)) seen.state
      rw [(same hseen).2.1, ho, hsteps.readLogs, hsteps.hydratedLogs] at h
      rcases h with h | h | h <;> cases h

/-- Nothing is looked up in a cache that cannot be read. -/
lemma hydrate_unread (hmode : env.mode.isReadable = false) (hne : a.cache.hash ≠ hash) :
    Triple (fun s => s = a) (hydrate env hash)
      (fun found s => found = false ∧ s.task = a.task ∧ (Untouched s ↔ Untouched a))
      (fun _ s => s = a) := by
  have unasked {answer : Option HydrateFrom} {seen : TaskRunner}
      (hseen : Answered env hash a answer seen) : answer = none ∧ seen = a := by
    constructor
    · by_contra h
      rcases hseen.asked (Option.isSome_iff_ne_none.mpr h) with h | h
      · rw [hmode] at h
        cases h
      · exact hne h
    · exact hseen.moved.resolve_right (fun h => by rw [hmode] at h; cases h.1)
  refine (hydrate_spec env hash a).conseq (fun _ h => h) ?_ ?_
  · rintro found s ⟨answer, seen, wrote, hseen, hs, hnone, -⟩
    obtain ⟨rfl, rfl⟩ := unasked hseen
    obtain ⟨hf, hw⟩ := hnone rfl
    exact ⟨hf, hs.task, hs.untouched.trans (and_iff_left hw)⟩
  · rintro _ s (rfl | ⟨h, -⟩ | ⟨source, seen, wrote, hseen, -⟩)
    · rfl
    · rw [hmode] at h
      cases h
    · cases (unasked hseen).1

lemma archiveOutputs_ok (hsteps : StepsSucceed a.task env) :
    ∃ archived, archiveOutputs env a = .ok archived := by
  obtain ⟨_, hstore⟩ := isOk_iff.mp hsteps.storeOutputs
  unfold archiveOutputs
  rw [hstore]
  by_cases hbt : a.task.isBuildType = true
  · rw [if_pos hbt, hsteps.created hbt]
    split_ifs <;> exact ⟨_, rfl⟩
  · rw [if_neg hbt]
    split_ifs <;> exact ⟨_, rfl⟩

lemma archive_course (hsteps : StepsSucceed a.task env)
    {E : TaskRunnerError → TaskRunner → Prop} :
    Triple (fun s => s = a) (archive env) (fun _ => SameButReport a) E := by
  obtain ⟨_, ha⟩ := archiveOutputs_ok hsteps
  unfold archive
  apply Triple.get_bind
  rintro runner rfl
  apply Triple.ite
  · intro _
    exact Triple.pure (fun _ => SameButReport.of_eq)
  · intro _
    apply Triple.lift_bind _ (fun _ _ he _ => by rw [ha] at he; cases he)
    intro archived _
    apply Triple.bind ((alike_pushOperation (a := runner) _).pre (fun _ => SameButReport.of_eq))
    intro _
    exact Triple.pure (fun _ h => h)

/-- How a run ends that fails only by its checks or its command: without a trace on the outputs,
or with the exit code of a command that failed. -/
def FailsCleanly (task : Task) (env : RunEnv) (runner : TaskRunner) : Prop :=
  Untouched runner ∨ runner.cache.exitCode ≠ 0 ∧ ¬ CommandSucceeds task env

lemma not_untouched_of_executed (h : runner.executed = true) : ¬ Untouched runner :=
  fun hu => by rw [hu.1] at h; cases h

lemma execute_ends (hsteps : StepsSucceed a.task env) (hu : Untouched a) :
    Triple (fun s => s = a) (execute env)
      (fun _ s => s.task = a.task ∧ (startsCommand a.task env = true → ¬ Untouched s))
      (fun _ s => FailsCleanly a.task env s ∧
        (startsCommand a.task env = true → ¬ Untouched s)) := by
  by_cases hst : startsCommand a.task env = true
  · refine (execute_course hsteps hst).conseq (fun s (hs : s = a) => hs ▸ rfl) ?_ ?_
    · rintro _ s ⟨ht, he⟩
      exact ⟨ht, fun _ => not_untouched_of_executed he⟩
    · rintro _ s ⟨he, hc⟩
      exact ⟨.inr hc, fun _ => not_untouched_of_executed he⟩
  · refine (alike_execute (Bool.not_eq_true _ ▸ hst)).conseq (fun _ => SameButReport.of_eq)
      ?_ ?_
    · intro _ s hs
      exact ⟨hs.task, fun h => absurd h hst⟩
    · intro _ s hs
      exact ⟨.inl (hs.untouched.mpr hu), fun h => absurd h hst⟩

/-- The saved hash does not move past outputs that stay as they are, if the command is started. -/
lemma internalRun_course (hsteps : StepsSucceed a.task env) (context : ActionContext)
    (hu : Untouched a) (hhy : a.hydrater = hydraterOf a.task env) :
    Triple (fun s => s = a) (internalRun env context)
      (fun _ s => startsCommand a.task env = true → Untouched s → s.cache.hash = a.cache.hash)
      (fun _ s => FailsCleanly a.task env s ∧
        (startsCommand a.task env = true → Untouched s → s.cache.hash = a.cache.hash)) := by
  have unchanged (s : TaskRunner) (hus : Untouched s) (hc : s.cache = a.cache) :
      FailsCleanly a.task env s ∧
      (startsCommand a.task env = true → Untouched s → s.cache.hash = a.cache.hash) :=
    ⟨.inl hus, fun _ _ => by rw [hc]⟩
  have executes (s : TaskRunner) (ht : s.task = a.task) (hus : Untouched s) :
      Triple (fun s' => s' = s) (execute env)
        (fun _ s => s.task = a.task ∧ (startsCommand a.task env = true → ¬ Untouched s))
        (fun _ s => FailsCleanly a.task env s ∧
          (startsCommand a.task env = true → Untouched s → s.cache.hash = a.cache.hash)) := by
    rw [← ht] at hsteps ⊢
    exact (execute_ends hsteps hus).conseq (fun _ h => h) (fun _ _ h => h)
      (fun _ s h => ⟨h.1, fun hst hs => absurd hs (h.2 hst)⟩)
  refine internalRun_rule (unchanged a hu rfl)
    (fun s hs => (unchanged s (hs.untouched.mpr hu) hs.cache).2) (fun _ d _ hashed hh => ?_)
  have huh : Untouched hashed := hh.untouched.mpr hu
  split_ifs
  · refine (hydrate_course hsteps hh.task (hh.hydrater.trans hhy)).conseq (fun _ h => h) ?_
      (fun _ s h => h ▸ unchanged hashed huh hh.cache)
    rintro found s ⟨hst, hfound, hmissed⟩
    split_ifs with hf
    · exact fun _ hus => by rw [hfound hf hus, hh.cache]
    · refine (executes s hst (hmissed (Bool.not_eq_true _ ▸ hf) huh)).post ?_
      rintro _ run ⟨hrt, hrun⟩
      rw [← hrt] at hsteps
      exact (archive_course hsteps).post
        (fun _ s' hs' hst hus => absurd (hs'.untouched.mp hus) (hrun hst))
  · exact (executes hashed hh.task huh).post (fun _ s hs hst hus => absurd hus (hs.2 hst))

/-- A run that neither reads a cache nor starts its command leaves the outputs as they are. -/
lemma internalRun_idle (context : ActionContext) (hu : Untouched a)
    (hidle : startsCommand a.task env = false)
    (hcache : (a.task.options.cache.isEnabled && env.vcsEnabled) = false ∨
      env.mode.isReadable = false ∧ ∀ digest, env.digest = .ok digest →
        a.cache.hash ≠ digest.hash) :
    Triple (fun s => s = a) (internalRun env context) (fun _ => Untouched)
      (fun _ => Untouched) := by
  have executes (s : TaskRunner) (ht : s.task = a.task) (hus : Untouched s) :
      Triple (fun s' => s' = s) (execute env) (fun _ => Untouched) (fun _ => Untouched) := by
    rw [← ht] at hidle
    exact (alike_execute hidle).conseq (fun _ => .of_eq) (fun _ _ h => h.untouched.mpr hus)
      (fun _ _ h => h.untouched.mpr hus)
  refine internalRun_rule hu (fun s hs => hs.untouched.mpr hu) (fun _ d hd hashed hh => ?_)
  have huh : Untouched hashed := hh.untouched.mpr hu
  split_ifs with hen
  · obtain ⟨hmode, hne⟩ := hcache.resolve_left (by simpa [isCacheEnabled] using hen)
    have hne' : hashed.cache.hash ≠ d.hash := by
      rw [hh.cache]
      exact hne d hd
    refine (hydrate_unread hmode hne').conseq (fun _ h => h) ?_ (fun _ _ h => h ▸ huh)
    rintro _ s ⟨rfl, hst, hsu⟩
    refine (executes s (hst.trans hh.task) (hsu.mpr huh)).post (fun _ s hs => ?_)
    exact alike_archive.conseq (fun _ => .of_eq) (fun _ _ h => h.untouched.mpr hs)
      (fun _ _ h => h.untouched.mpr hs)
  · exact executes hashed hh.task huh

end

/-- One run of the task, with what it meets on the machine and in the pipeline. -/
structure TaskRun where
  env : RunEnv
  context : ActionContext := {}

/-- The state file, and the last run that wrote outputs: its hash and whether it ended
without an error. -/
structure History where
  file : Option TaskRunCacheState := none
  lastWrite : Option (Option String × Bool) := none

def History.report (task : Task) (history : History) (taskRun : TaskRun) : RunReport :=
  run taskRun.env task history.file taskRun.context

def History.step (task : Task) (history : History) (taskRun : TaskRun) : History :=
  let report := history.report task taskRun
  { file := report.file
    lastWrite :=
      if Untouched report.runner then history.lastWrite
      else some (report.runner.reportHash, report.result.isOk) }

def History.after (task : Task) (runs : List TaskRun) : History := runs.foldl (History.step task) {}

lemma new_cache (env : RunEnv) (k : Task) (f : Option TaskRunCacheState) :
    (new env k f).cache.exitCode = (load env.mode f).exitCode ∧
      (new env k f).cache.hash = (load env.mode f).hash := by
  unfold new
  dsimp only
  split_ifs <;> exact ⟨rfl, rfl⟩

lemma report_finished (task : Task) (history : History) (t : TaskRun) :
    Finished t.env t.context task (new t.env task history.file).cache
      (history.report task t).runner := by
  have h := finished_internalRun t.env t.context (new t.env task history.file) ⟨rfl, rfl⟩ rfl _ rfl
  unfold History.report run
  cases hr : (internalRun t.env t.context).run (new t.env task history.file) with
  | ok | error =>
    rw [hr] at h
    cases t.env.saveState <;> exact ⟨h.exitCode, h.cacheHash, h.touchedHash, h.reported⟩

lemma report_course {task : Task} {t : TaskRun} (hsteps : StepsSucceed task t.env)
    (history : History) :
    ((history.report task t).result.isOk = false →
      FailsCleanly task t.env (history.report task t).runner) ∧
    (startsCommand task t.env = true → Untouched (history.report task t).runner →
      (history.report task t).runner.cache.hash = (new t.env task history.file).cache.hash) := by
  have h := internalRun_course (a := new t.env task history.file) hsteps t.context ⟨rfl, rfl⟩ rfl
    _ rfl
  obtain ⟨_, hs⟩ := isOk_iff.mp hsteps.saveState
  obtain ⟨_, hc⟩ := isOk_iff.mp hsteps.completed
  unfold History.report run
  rw [hs, hc]
  cases hr : (internalRun t.env t.context).run (new t.env task history.file) with
  | ok =>
    rw [hr] at h
    exact ⟨fun hn => (by cases hn), h⟩
  | error =>
    rw [hr] at h
    exact ⟨fun _ => h.1, h.2⟩

lemma report_idle {task : Task} {t : TaskRun} (history : History)
    (hidle : startsCommand task t.env = false)
    (hcache : (task.options.cache.isEnabled && t.env.vcsEnabled) = false ∨
      t.env.mode.isReadable = false) :
    Untouched (history.report task t).runner := by
  have hne (hm : t.env.mode.isReadable = false) (digest : Digest) (hd : t.env.digest = .ok digest) :
      (new t.env task history.file).cache.hash ≠ digest.hash := by
    rw [(new_cache t.env task history.file).2, CacheItem.load, if_neg (by simp [hm])]
    exact (t.env.digest_hash_ne digest hd).symm
  have h := internalRun_idle (a := new t.env task history.file) t.context ⟨rfl, rfl⟩ hidle
    (hcache.imp_right (fun hm => ⟨hm, hne hm⟩)) _ rfl
  unfold History.report run
  cases hr : (internalRun t.env t.context).run (new t.env task history.file) with
  | ok | error =>
    rw [hr] at h
    cases t.env.saveState <;> exact h

lemma report_file (k : Task) (history : History) (t : TaskRun) :
    (history.report k t).file = if t.env.saveState.isOk && t.env.mode.isWritable then
        some (history.report k t).runner.cache
      else history.file := by
  unfold History.report run save
  cases (internalRun t.env t.context).run (new t.env k history.file) <;>
    cases t.env.saveState <;> simp [Except.isOk, Except.toBool]

/-- A run after which the state file can be believed, told from what the run meets and from the
file before it. -/
inductive SafeRun (task : Task) (file : Option TaskRunCacheState) (taskRun : TaskRun) : Prop
  /-- With caching, and in a mode in which the state is saved. Where the file tells of a success,
  the command is started for every other hash. -/
  | recorded (hmode : taskRun.env.mode.isWritable = true)
      (hcached : (task.options.cache.isEnabled && taskRun.env.vcsEnabled) = true)
      (hsteps : StepsSucceed task taskRun.env)
      (hstarts : taskRun.env.mode = .readWrite → (file.getD {}).exitCode = 0 →
        ∀ digest, taskRun.env.digest = .ok digest → (file.getD {}).hash ≠ digest.hash →
          startsCommand task taskRun.env = true)
  /-- Under the hash of the file, in any mode, with a command that succeeds. -/
  | repeated (hsteps : StepsSucceed task taskRun.env)
      (hsucceeds : CommandSucceeds task taskRun.env)
      (hhash : ∀ digest, taskRun.env.digest = .ok digest →
        ∃ state, file = some state ∧ state.hash = digest.hash)
  /-- Without a state that is saved, where the file tells of no success. -/
  | unsaved (hsave : taskRun.env.mode.isWritable = false ∨ taskRun.env.saveState.isOk = false)
      (hfile : ∀ state, file = some state → state.exitCode = 0 → state.hash = "")
  /-- Without a hash that could be saved. -/
  | unnamed (hname : taskRun.env.mode = .write ∧ taskRun.env.saveState.isOk = true ∨
      (task.options.cache.isEnabled && taskRun.env.vcsEnabled) = false ∧
        ∀ state, file = some state → state.hash = "")
  /-- Without a hash of its own, since a dependency is not complete or hashing fails. -/
  | unhashed (hhash : isDependenciesComplete task taskRun.context task.deps ≠ .ok true ∨
      taskRun.env.digest.isOk = false)
  /-- Without a cache to read from and without a command. -/
  | idle (hidle : startsCommand task taskRun.env = false)
      (hcache : (task.options.cache.isEnabled && taskRun.env.vcsEnabled) = false ∨
        taskRun.env.mode.isReadable = false)

/-- Runs that are safe one after another, each with the file that the one before it leaves. -/
def SafeRuns (task : Task) : Option TaskRunCacheState → List TaskRun → Prop
  | _, [] => True
  | file, taskRun :: rest => SafeRun task file taskRun ∧
      SafeRuns task (run taskRun.env task file taskRun.context).file rest

/-- The file tells of a success only if the outputs are from it. -/
def FileBelieved (history : History) : Prop :=
  ∀ state, history.file = some state → state.exitCode = 0 → state.hash ≠ "" →
    history.lastWrite = some (some state.hash, true)

lemma FileBelieved.load (h : FileBelieved history) (m : CacheMode)
    (hex : (CacheItem.load m history.file).exitCode = 0)
    (hh : (CacheItem.load m history.file).hash ≠ "") :
    history.lastWrite = some (some (CacheItem.load m history.file).hash, true) := by
  unfold CacheItem.load at hex hh ⊢
  split_ifs at hex hh ⊢ with hrd
  · cases hf : history.file with
    | none =>
      rw [hf] at hh
      exact absurd rfl hh
    | some s =>
      rw [hf] at hex hh
      exact h s hf hex hh
  · exact absurd rfl hh

section

variable {task : Task} {t : TaskRun}

/-- A run that leaves the outputs and the loaded state as they are. -/
lemma fileBelieved_of_untouched (h : FileBelieved history)
    (hu : Untouched (history.report task t).runner)
    (hh : (load t.env.mode history.file).exitCode = 0 →
      (history.report task t).runner.cache.hash = (load t.env.mode history.file).hash) :
    FileBelieved (history.step task t) := by
  intro s hfl hex hne
  change (history.report task t).file = some s at hfl
  change (if Untouched _ then _ else _) = _
  rw [if_pos hu]
  rw [report_file] at hfl
  split_ifs at hfl with hsv
  · cases hfl
    have he : (load t.env.mode history.file).exitCode = 0 := by
      rw [← (new_cache t.env task history.file).1, ← (report_finished task history t).exitCode hu,
        hex]
    rw [hh he] at hne ⊢
    exact h.load t.env.mode he hne
  · exact h s hfl hex hne

/-- A run that writes outputs, and saves an exit code of 0 only under its own hash and if it ends
well. -/
lemma fileBelieved_of_written (hu : ¬ Untouched (history.report task t).runner)
    (hw : ∀ state, (history.report task t).file = some state → state.exitCode = 0 →
      state.hash ≠ "" → (history.report task t).runner.reportHash = some state.hash ∧
        (history.report task t).result.isOk = true) :
    FileBelieved (history.step task t) := by
  intro s hfl hex hne
  obtain ⟨hr, ho⟩ := hw s hfl hex hne
  change (if Untouched _ then _ else _) = _
  rw [if_neg hu, hr, ho]

/-- A run after which the file tells of no success. -/
lemma fileBelieved_of_unnamed (h : ∀ state, (history.report task t).file = some state →
    state.exitCode = 0 → state.hash = "") : FileBelieved (history.step task t) :=
  fun s hfl hex hne => absurd (h s hfl hex) hne

lemma readWrite_of {mode : CacheMode} (hr : mode.isReadable = true) (hw : mode.isWritable = true) :
    mode = .readWrite := by
  cases mode with
  | readWrite => rfl
  | read => cases hw
  | off | write => cases hr

lemma load_of_readable {mode : CacheMode} (hr : mode.isReadable = true)
    (file : Option TaskRunCacheState) : load mode file = file.getD {} := if_pos hr

lemma load_hash_of_unreadable {mode : CacheMode} (hr : mode.isReadable ≠ true)
    (file : Option TaskRunCacheState) : (load mode file).hash = "" := by
  rw [CacheItem.load, if_neg hr]

lemma fileBelieved_recorded (h : FileBelieved history) (hmode : t.env.mode.isWritable = true)
    (hcached : (task.options.cache.isEnabled && t.env.vcsEnabled) = true)
    (hsteps : StepsSucceed task t.env)
    (hstarts : t.env.mode = .readWrite → (history.file.getD {}).exitCode = 0 →
      ∀ digest, t.env.digest = .ok digest → (history.file.getD {}).hash ≠ digest.hash →
        startsCommand task t.env = true) :
    FileBelieved (history.step task t) := by
  have hf := report_finished task history t
  have hst := (new_cache t.env task history.file).2
  obtain ⟨hclean, hkept⟩ := report_course hsteps history
  by_cases hu : Untouched (history.report task t).runner
  · apply fileBelieved_of_untouched h hu
    intro hex
    rcases hf.cacheHash with hsame | ⟨hr, -, hrep⟩
    · rw [hsame, hst]
    · -- the hash has moved, so it was that of the file or the command was started
      rcases hf.reported with ⟨hn, -⟩ | ⟨-, d, hd, hrd⟩
      · rw [hn] at hrep
        cases hrep
      · have hd' : (history.report task t).runner.cache.hash = d.hash :=
          Option.some.inj (hrep.symm.trans hrd)
        rw [load_of_readable hr] at hex ⊢
        by_cases hs : (history.file.getD {}).hash = d.hash
        · rw [hd', hs]
        · rw [hkept (hstarts (readWrite_of hr hmode) hex d hd hs) hu, hst, load_of_readable hr]
  · apply fileBelieved_of_written hu
    intro s hfl hex hne
    rw [report_file, hsteps.saveState, hmode, Bool.and_self, if_pos rfl] at hfl
    cases hfl
    refine ⟨?_, ?_⟩
    · by_cases hr : t.env.mode.isReadable = true
      · exact hf.touchedHash hu hcached hr
      · have hsame := hf.cacheHash.resolve_right (fun h => hr h.1)
        rw [hsame, hst, load_hash_of_unreadable hr] at hne
        exact absurd rfl hne
    · by_contra hno
      rcases hclean (Bool.not_eq_true _ ▸ hno) with h | ⟨h, -⟩
      · exact hu h
      · exact h hex

lemma fileBelieved_repeated (h : FileBelieved history) (hsteps : StepsSucceed task t.env)
    (hsucceeds : CommandSucceeds task t.env)
    (hhash : ∀ digest, t.env.digest = .ok digest →
      ∃ state, history.file = some state ∧ state.hash = digest.hash) :
    FileBelieved (history.step task t) := by
  have hf := report_finished task history t
  have hst := (new_cache t.env task history.file).2
  obtain ⟨hclean, -⟩ := report_course hsteps history
  by_cases hu : Untouched (history.report task t).runner
  · apply fileBelieved_of_untouched h hu
    intro _
    rcases hf.cacheHash with hsame | ⟨hr, -, hrep⟩
    · rw [hsame, hst]
    · rcases hf.reported with ⟨hn, -⟩ | ⟨-, d, hd, hrd⟩
      · rw [hn] at hrep
        cases hrep
      · rw [hrep] at hrd
        obtain ⟨state, hfile, hs⟩ := hhash d hd
        rw [load_of_readable hr, hfile, Option.getD_some, hs]
        exact Option.some.inj hrd
  · apply fileBelieved_of_written hu
    intro s hfl hex hne
    obtain ⟨-, d, hd, hrd⟩ := hf.reported.resolve_left (fun h => hu h.2)
    obtain ⟨state, hfile, hs⟩ := hhash d hd
    refine ⟨?_, ?_⟩
    · rw [report_file, hfile] at hfl
      split_ifs at hfl
      · cases hfl
        rcases hf.cacheHash with hsame | ⟨-, -, hrep⟩
        · by_cases hr : t.env.mode.isReadable = true
          · rw [hrd, hsame, hst, load_of_readable hr, hfile, Option.getD_some, hs]
          · rw [hsame, hst, load_hash_of_unreadable hr] at hne
            exact absurd rfl hne
        · exact hrep
      · cases hfl
        rw [hrd, hs]
    · by_contra hno
      rcases hclean (Bool.not_eq_true _ ▸ hno) with h | ⟨-, h⟩
      · exact hu h
      · exact h hsucceeds

lemma fileBelieved_step (h : FileBelieved history) (hsafe : SafeRun task history.file t) :
    FileBelieved (history.step task t) := by
  have hf := report_finished task history t
  have hst := (new_cache t.env task history.file).2
  have hfile := report_file task history t
  cases hsafe with
  | recorded hmode hcached hsteps hstarts =>
    exact fileBelieved_recorded h hmode hcached hsteps hstarts
  | repeated hsteps hsucceeds hhash => exact fileBelieved_repeated h hsteps hsucceeds hhash
  | unsaved hsave hno =>
    apply fileBelieved_of_unnamed
    rw [hfile, if_neg (by rcases hsave with h | h <;> simp [h])]
    exact hno
  | unnamed hname =>
    apply fileBelieved_of_unnamed
    intro s hfl _
    rw [hfile] at hfl
    rcases hname with ⟨hm, hs⟩ | ⟨hc, hno⟩
    · have hr : t.env.mode.isReadable ≠ true := by simp [hm, CacheMode.isReadable]
      rw [hs, hm] at hfl
      cases hfl
      rw [hf.cacheHash.resolve_right (fun h => hr h.1), hst, load_hash_of_unreadable hr]
    · split_ifs at hfl
      · cases hfl
        rw [hf.cacheHash.resolve_right (fun h => by rw [hc] at h; cases h.2.1), hst,
          CacheItem.load]
        split_ifs
        · cases hfl : history.file with
          | none => rfl
          | some state => exact hno state hfl
        · rfl
      · exact hno s hfl
  | unhashed hhash =>
    have hn : (history.report task t).runner.reportHash = none ∧
        Untouched (history.report task t).runner := by
      refine hf.reported.resolve_right ?_
      rintro ⟨hc, d, hd, -⟩
      rw [hc, hd] at hhash
      rcases hhash with h | h
      · exact h rfl
      · cases h
    apply fileBelieved_of_untouched h hn.2
    intro _
    rw [hf.cacheHash.resolve_right (fun h => by rw [hn.1] at h; cases h.2.2), hst]
  | idle hidle hcache =>
    apply fileBelieved_of_untouched h (report_idle history hidle hcache)
    intro _
    rw [hf.cacheHash.resolve_right, hst]
    rintro ⟨hr, hc, -⟩
    rcases hcache with h | h
    · rw [h] at hc
      cases hc
    · rw [h] at hr
      cases hr

lemma fileBelieved_runs {runs : List TaskRun} (h : FileBelieved history)
    (hs : SafeRuns task history.file runs) :
    FileBelieved (runs.foldl (History.step task) history) := by
  induction runs generalizing history with
  | nil => exact h
  | cons t runs ih => exact ih (fileBelieved_step h hs.1) hs.2

end

/-- Where the cache check finds the outputs of the hash. -/
def cachedFrom (env : RunEnv) (hash : String) (runner : TaskRunner) : Option HydrateFrom :=
  match (isCached env hash).run runner with
  | .ok answer _ => answer
  | .error _ _ => none

lemma cachedFrom_previousOutput (h : cachedFrom env hash runner = some .previousOutput) :
    runner.cache.exitCode = 0 ∧ runner.cache.hash = hash := by
  have hs := isCached_spec env hash runner runner rfl
  unfold cachedFrom at h
  cases hr : (isCached env hash).run runner with
  | ok answer final =>
    rw [hr] at h hs
    obtain ⟨hex, hh, -⟩ := hs.previous h
    exact ⟨hex, hh⟩
  | error error final =>
    rw [hr] at h
    cases h

/-- After any history of safe runs, the previous outputs are reused for a hash only if the
last run that wrote outputs ended without an error under that hash. -/
theorem previousOutput_only_after_success (task : Task) (runs : List TaskRun)
    (hsafe : SafeRuns task none runs) (env : RunEnv) (digest : Digest)
    (hdigest : env.digest = .ok digest) (runner : TaskRunner)
    (hcache : runner.cache = (new env task (History.after task runs).file).cache)
    (h : cachedFrom env digest.hash runner = some .previousOutput) :
    (History.after task runs).lastWrite = some (some digest.hash, true) := by
  obtain ⟨hex, hh⟩ := cachedFrom_previousOutput h
  obtain ⟨hst, hs⟩ := new_cache env task (History.after task runs).file
  rw [hcache, hst] at hex
  rw [hcache, hs] at hh
  have hb : FileBelieved (History.after task runs) :=
    fileBelieved_runs (fun s hf => by cases hf) hsafe
  have hn : digest.hash ≠ "" := env.digest_hash_ne digest hdigest
  rw [← hh] at hn ⊢
  exact hb.load env.mode hex hn

def plainRun (hash : String) (hne : hash ≠ "") : RunEnv where
  mode := .readWrite
  digest := .ok ⟨hash, 1⟩
  digest_hash_ne := by
    intro digest h
    cases h
    exact hne

/-- A run whose command fails. -/
def failedRun (hash : String) (hne : hash ≠ "") : RunEnv :=
  { plainRun hash hne with attempts := fun _ => { outcome := .output (some (some 1)) } }

lemma stepsSucceed_plainRun {task : Task} {hash : String} (hne : hash ≠ "")
    (htask : task.isBuildType = false) : StepsSucceed task (plainRun hash hne) :=
  ⟨rfl, rfl, fun _ h => (by cases h), rfl, rfl, rfl, fun _ => ⟨rfl, rfl⟩,
    fun h => (by rw [htask] at h; cases h), rfl, rfl, rfl⟩

/-- Two hashes in turn, a command that fails in between, and a run with the cache turned off. -/
theorem previousOutput_after_plainRuns :
    let task : Task := { target := Target.new "app" "test", command := ⟨none, "cargo"⟩ }
    let aaa := plainRun "aaa" (by decide)
    let runs : List TaskRun := [⟨aaa, {}⟩, ⟨failedRun "bbb" (by decide), {}⟩, ⟨aaa, {}⟩,
      ⟨{ aaa with mode := .off }, {}⟩]
    cachedFrom aaa "aaa" (new aaa task (History.after task runs).file) = some .previousOutput ∧
      (History.after task runs).lastWrite = some (some "aaa", true) := by
  intro task aaa runs
  have haaa : StepsSucceed task aaa := stepsSucceed_plainRun (by decide) (by decide)
  have hs : SafeRuns task none runs := by
    refine ⟨.recorded rfl rfl haaa (fun _ _ _ _ _ => by decide), ?_, ?_, ?_, trivial⟩
    · exact .recorded rfl rfl { haaa with events := fun _ => ⟨rfl, rfl⟩ }
        (fun _ _ _ _ _ => by decide)
    · exact .recorded rfl rfl haaa (fun _ _ _ _ _ => by decide)
    · refine .repeated { haaa with } ⟨0, by decide, rfl, by simp⟩ (fun d hd => ?_)
      cases hd
      exact ⟨_, rfl, by decide +kernel⟩
  have hc : cachedFrom aaa "aaa" (new aaa task (History.after task runs).file) =
      some .previousOutput := by decide +kernel
  exact ⟨hc, previousOutput_only_after_success task runs hs aaa ⟨"aaa", 1⟩ rfl _ rfl hc⟩

/-- A failed requirement leaves its hash next to the exit code of the run before it. -/
theorem requirement_failure_reused_as_success :
    let task : Task := { target := Target.new "app" "test", command := ⟨none, "cargo"⟩ }
    let f : RunEnv := { plainRun "bbb" (by decide) with
      checks := .ok [{ attempt := ⟨.processExecution (some 1), .failed⟩
                       check := .requirement "docker info"
                       success := some false }] }
    let history := History.after task [⟨plainRun "aaa" (by decide), {}⟩, ⟨f, {}⟩]
    history.lastWrite = some (some "aaa", true) ∧
      cachedFrom f "bbb" (new f task history.file) = some .previousOutput := by
  decide +kernel

end Moon.Proofs
