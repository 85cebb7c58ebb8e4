import Moon.TaskExecutor

/-!
# Attempts of a task

The loop over the attempts stops at the first outcome that is final. How many attempts there may
be is counted in the type of the retry count, which wraps.
-/

namespace Moon.Proofs

open List AttemptOutcome TargetState

def errorOf : AttemptOutcome → Option TaskRunnerError
  | .crashed error => some error
  | _ => none

/-- There is no other attempt after this outcome, whatever the retry count. -/
def Final (outcome : AttemptOutcome) : Prop :=
  outcome.success = true ∨ (errorOf outcome).isSome = true

/-- Attempts that the console reports without an error. -/
def attemptsOf (outcomes : Nat → AttemptOutcome) (index : Nat) : Attempt :=
  { outcome := outcomes index }

def resultOf (hash : Option String) (done : List Operation) (last : AttemptOutcome) :
    TaskExecuteResult :=
  ⟨done ++ [last.attempt], errorOf last, if last.success then .fromHash hash else .failed⟩

instance (outcome : AttemptOutcome) : Decidable (Final outcome) :=
  inferInstanceAs (Decidable (_ ∨ _))

variable (hash : Option String) (os : Nat → AttemptOutcome)

lemma attemptLoop_eq (n i : Nat) (d : List Operation) :
    attemptLoop hash (attemptsOf os) n i d =
      if n = 0 ∨ Final (os i) then (true, .ok (resultOf hash d (os i)))
      else attemptLoop hash (attemptsOf os) (n - 1) (i + 1) (d ++ [(os i).attempt]) := by
  rw [attemptLoop]
  cases ho : os i with
  | crashed error | timedOut =>
    cases n <;> simp [attemptsOf, resultOf, ho, Final, errorOf, success]
  | output s =>
    cases n with
    | zero => simp [attemptsOf, resultOf, ho, errorOf]
    | succ n =>
      by_cases hs : (output s).success <;>
        simp [attemptsOf, resultOf, ho, hs, Final, errorOf]

/-- The loop returns at some attempt: no earlier outcome was final, and either it is the last
attempt or its own outcome is. -/
lemma attemptLoop_spec (n i : Nat) (d : List Operation) :
    ∃ k ≤ n, (∀ j < k, ¬ Final (os (i + j))) ∧ (k = n ∨ Final (os (i + k))) ∧
      ∃ b, b.length = d.length + k ∧
        attemptLoop hash (attemptsOf os) n i d = (true, .ok (resultOf hash b (os (i + k)))) := by
  induction n generalizing i d with
  | zero => exact ⟨0, le_rfl, by simp, .inl rfl, d, rfl, attemptLoop_eq _ _ 0 i d⟩
  | succ n ih =>
    have hn := attemptLoop_eq hash os (n + 1) i d
    by_cases hf : Final (os i)
    · rw [if_pos (.inr hf)] at hn
      exact ⟨0, by omega, by simp, .inr hf, d, rfl, hn⟩
    · rw [if_neg (by simp [hf])] at hn
      obtain ⟨k, hk, hb, hl, b, hlen, he⟩ := ih (i + 1) (d ++ [(os i).attempt])
      have hi : i + 1 + k = i + (k + 1) := by omega
      rw [hi] at hl he
      refine ⟨k + 1, by omega, fun j hj => ?_, hl.imp_left (by omega), b, ?_, hn.trans he⟩
      · cases j with
        | zero => exact hf
        | succ j =>
          have hj' : i + 1 + j = i + (j + 1) := by omega
          exact hj' ▸ hb j (by omega)
      · rw [hlen, length_append, length_singleton]
        omega

/-- Whether an execution ends after the first final outcome or the last attempt that is allowed, and
as passed exactly if that outcome is a success. -/
def EndsInTime (retryCount : Nat) (result : TaskExecuteResult) : Prop :=
  IsLeast {n | n = retryCount + 1 ∨ 1 ≤ n ∧ Final (os n)} result.attempts.length ∧
    (result.runState = .fromHash hash ↔ ∃ n, 1 ≤ n ∧ n ≤ retryCount + 1 ∧
      (os n).success = true ∧ ∀ m, 1 ≤ m → m < n → (errorOf (os m)).isNone = true) ∧
    ((result.error.isSome || (getLastExecution result.attempts).any Operation.hasFailed) =
      !result.runState.isComplete)

lemma fromHash_ne_failed : fromHash hash ≠ .failed := by
  cases hash <;> simp [fromHash]

lemma isComplete_fromHash : (fromHash hash).isComplete := by
  cases hash <;> rfl

lemma getLastExecution_append_attempt (d : List Operation) (l : AttemptOutcome) :
    getLastExecution (d ++ [l.attempt]) = some l.attempt := by
  cases l <;> simp [getLastExecution, attempt, Operation.isTaskExecution]

lemma resultOf_reported (d : List Operation) (l : AttemptOutcome) :
    ((resultOf hash d l).error.isSome ||
      (getLastExecution (resultOf hash d l).attempts).any Operation.hasFailed) =
        !(resultOf hash d l).runState.isComplete := by
  simp only [resultOf, getLastExecution_append_attempt, Option.any_some]
  cases l with
  | crashed error => rfl
  | timedOut => rfl
  | output s =>
    by_cases hs : s = some (some 0)
    · simp only [hs, success, beq_self_eq_true, if_true, isComplete_fromHash]
      rfl
    · simp [hs, success, attempt, Operation.hasFailed, isComplete]

variable {hash os}

lemma endsInTime_resultOf {k r : Nat} {b : List Operation} (hlen : b.length = k) (hr : k ≤ r)
    (hb : ∀ j < k, ¬ Final (os (1 + j))) (hl : k = r ∨ Final (os (1 + k))) :
    EndsInTime hash os r (resultOf hash b (os (1 + k))) := by
  have hlow : ∀ m, 1 ≤ m → Final (os m) → k + 1 ≤ m := by
    intro m hm hf
    by_contra hlt
    have hn := hb (m - 1) (by omega)
    rw [show 1 + (m - 1) = m by omega] at hn
    exact hn hf
  have hstate : (resultOf hash b (os (1 + k))).runState = .fromHash hash ↔
      (os (1 + k)).success := by
    by_cases hs : (os (1 + k)).success <;>
      simp [resultOf, hs, (fromHash_ne_failed hash).symm]
  refine ⟨⟨?_, ?_⟩, ?_, resultOf_reported _ _ _⟩
  · simp only [resultOf, length_append, length_singleton, hlen, Set.mem_ofPred_eq]
    rw [Nat.add_comm 1 k] at hl
    exact hl.imp (by omega) (fun hf => ⟨by omega, hf⟩)
  · intro m hm
    simp only [resultOf, length_append, length_singleton, hlen]
    rcases hm with rfl | ⟨hm, hf⟩
    · omega
    · exact hlow m hm hf
  · rw [hstate]
    constructor
    · intro hs
      refine ⟨1 + k, by omega, by omega, hs, fun m hm hmk => ?_⟩
      have hn := hb (m - 1) (by omega)
      rw [show 1 + (m - 1) = m by omega] at hn
      simpa using fun h => hn (.inr h)
    · rintro ⟨m, hm, hmr, hs, hc⟩
      have hkm := hlow m hm (.inl hs)
      by_cases he : 1 + k = m
      · exact he ▸ hs
      · -- the loop ended before, so its last outcome is final, and it did not crash
        have hf : Final (os (1 + k)) := hl.resolve_left (by omega)
        have hnc := hc (1 + k) (by omega) (by omega)
        exact hf.resolve_right (by simpa using hnc)

/-- An execution ends in time unless the retry count is the largest of its type and the first
outcome is not final: then the total wraps to zero and there is one attempt only. -/
theorem attempts_in_time_iff (task : Task) (hash : Option String)
    (outcomes : Nat → AttemptOutcome) (hcount : task.options.retryCount < 256) :
    (∃ result, TaskExecutor.execute task hash (attemptsOf outcomes) = (true, .ok result) ∧
      EndsInTime hash outcomes task.options.retryCount result) ↔
      task.options.retryCount < 255 ∨ Final (outcomes 1) := by
  set r := task.options.retryCount with hr
  obtain ⟨k, hk, hb, hl, b, hlen, he⟩ := attemptLoop_spec hash outcomes ((r + 1) % 256 - 1) 1 []
  rw [length_nil, Nat.zero_add] at hlen
  have hex : TaskExecutor.execute task hash (attemptsOf outcomes) =
      (true, .ok (resultOf hash b (outcomes (1 + k)))) := he
  constructor
  · rintro ⟨result, hres, hend⟩
    cases hex.symm.trans hres
    by_cases hlt : r < 255
    · exact .inl hlt
    · have hk0 : k = 0 := by omega
      subst hk0
      have hmem := hend.1.1
      simp only [resultOf, length_append, length_singleton, hlen, Set.mem_ofPred_eq] at hmem
      exact .inr (hmem.resolve_left (by omega)).2
  · intro hc
    refine ⟨_, hex, ?_⟩
    by_cases hlt : r < 255
    · have htotal : (r + 1) % 256 - 1 = r := by omega
      rw [htotal] at hk hl
      exact endsInTime_resultOf hlen hk hb hl
    · have hk0 : k = 0 := by omega
      subst hk0
      exact endsInTime_resultOf hlen (Nat.zero_le r) hb (.inr (hc.resolve_left hlt))

def retried (count : Nat) : Task :=
  { target := Target.new "app" "test", command := ⟨none, "cargo"⟩,
    options := { retryCount := count } }

/-- The first attempt fails and every other one would pass. -/
def passesLater (index : Nat) : AttemptOutcome := .output (some (some (if index = 1 then 1 else 0)))

theorem largest_retry_count_never_retries :
    TaskExecutor.execute (retried 255) (some "aaa") (attemptsOf passesLater) =
        (true, .ok ⟨[⟨.taskExecution (some 1), .failed⟩], none, .failed⟩) ∧
      (passesLater 2).success = true :=
  ⟨attemptLoop_eq _ _ 0 1 [], rfl⟩

theorem retry_passes :
    ∃ result, TaskExecutor.execute (retried 2) (some "aaa") (attemptsOf passesLater) =
        (true, .ok result) ∧ EndsInTime (some "aaa") passesLater 2 result :=
  (attempts_in_time_iff (retried 2) (some "aaa") passesLater (by decide)).mpr (.inl (by decide))

end Moon.Proofs
