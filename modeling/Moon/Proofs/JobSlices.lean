import Moon.RunTasks

/-! # The slices of jobs -/

namespace Moon.Proofs

open ActionGraphBuilder List

def jobSize (jobTotal : Nat) (tasks : List Task) : Nat := (tasks.length + jobTotal - 1) / jobTotal

section

variable {jobTotal : Nat} {tasks : List Task}

variable (tasks) in
lemma length_le_jobSize_mul (ht : 0 < jobTotal) :
    tasks.length ≤ jobSize jobTotal tasks * jobTotal := by
  have hdiv := Nat.div_add_mod (tasks.length + jobTotal - 1) jobTotal
  have hmod := Nat.mod_lt (tasks.length + jobTotal - 1) ht
  rw [Nat.mul_comm]
  change tasks.length ≤ jobTotal * ((tasks.length + jobTotal - 1) / jobTotal)
  omega

lemma jobSlice_of_lt {j : Nat} (hidx : j < jobTotal)
    (hstr : jobSize jobTotal tasks * j < tasks.length) :
    jobSlice j jobTotal tasks = (tasks.take (jobSize jobTotal tasks * (j + 1))).drop
        (jobSize jobTotal tasks * j) := by
  have hl := length_le_jobSize_mul tasks (show 0 < jobTotal by omega)
  have hf : (if j == 0 then 0
      else (tasks.length + jobTotal - 1) / jobTotal * j) =
      jobSize jobTotal tasks * j := by
    split
    next hz => rw [eq_of_beq hz, Nat.mul_zero]
    next => rfl
  have hs : ∀ s,
      s = jobSize jobTotal tasks * (j + 1) ∨
        s = tasks.length ∧ tasks.length ≤ jobSize jobTotal tasks * (j + 1) →
      (if s < tasks.length then
        (tasks.take s).drop (jobSize jobTotal tasks * j)
        else tasks.drop (jobSize jobTotal tasks * j)) =
      (tasks.take (jobSize jobTotal tasks * (j + 1))).drop (jobSize jobTotal tasks * j) := by
    intro s hst
    split
    next hlt =>
      have heq : s = jobSize jobTotal tasks * (j + 1) := by omega
      rw [heq]
    next hge =>
      have hen : tasks.length ≤ jobSize jobTotal tasks * (j + 1) := by omega
      rw [take_of_length_le hen]
  simp only [jobSlice, hf, if_pos hstr]
  apply hs
  split
  next hz =>
    rw [eq_of_beq hz, Nat.zero_add, Nat.mul_one]
    exact .inl rfl
  next =>
    split
    next hls =>
      have hn : j + 1 = jobTotal := by
        have := eq_of_beq hls
        omega
      rw [hn]
      exact .inr ⟨rfl, hl⟩
    next => exact .inl rfl

lemma jobSlice_of_le {j : Nat} (hidx : 0 < j) (hs : tasks.length ≤ jobSize jobTotal tasks * j) :
    jobSlice j jobTotal tasks = tasks := by
  have hn : (j == 0) = false := beq_false_of_ne (by omega)
  unfold jobSlice
  simp only [hn, Bool.false_eq_true, if_false]
  exact if_neg (Nat.not_lt.mpr hs)

lemma flatMap_jobSlice {n : Nat} (hcnt : n ≤ jobTotal)
    (hs : ∀ j < n, jobSize jobTotal tasks * j < tasks.length) :
    (range n).flatMap (fun j => jobSlice j jobTotal tasks) =
      tasks.take (jobSize jobTotal tasks * n) := by
  induction n with
  | zero => simp
  | succ n ih =>
    have hl : jobSize jobTotal tasks * n ≤ jobSize jobTotal tasks * (n + 1) :=
      Nat.mul_le_mul_left _ (by omega)
    have hb : (tasks.take (jobSize jobTotal tasks * (n + 1))).take
        (jobSize jobTotal tasks * n) = tasks.take (jobSize jobTotal tasks * n) := by
      rw [take_take, Nat.min_eq_left hl]
    rw [range_succ, flatMap_append, flatMap_singleton, ih (by omega) (fun j h => hs j (by omega)),
      jobSlice_of_lt (by omega) (hs n (by omega)), ← hb]
    exact take_append_drop _ _

/-- The slices of all jobs are the tasks if and only if the last job has one. -/
theorem jobSlices_partition_iff (htotal : 0 < jobTotal) :
    (range jobTotal).flatMap (fun jobIndex => jobSlice jobIndex jobTotal tasks) = tasks ↔
      tasks = [] ∨ jobSize jobTotal tasks * (jobTotal - 1) < tasks.length := by
  constructor
  · intro hs
    by_contra hc
    obtain ⟨hsm, hl⟩ := not_or.mp hc
    have hlen : 0 < tasks.length := length_pos_iff.mpr hsm
    obtain ⟨l, rfl⟩ : ∃ l, jobTotal = l + 1 := ⟨jobTotal - 1, by omega⟩
    rw [Nat.add_sub_cancel] at hl
    have hm : 0 < l := by
      by_contra hone
      have hz : l = 0 := by omega
      rw [hz] at hl
      omega
    have hsz : 0 < jobSize (l + 1) tasks := by
      by_contra hz
      have hn : jobSize (l + 1) tasks = 0 := by omega
      have hle := length_le_jobSize_mul tasks htotal
      rw [hn] at hle
      omega
    -- the first slice is not empty, and the last one has all tasks
    have hf : jobSlice 0 (l + 1) tasks ≠ [] := by
      rw [jobSlice_of_lt htotal (by omega), Nat.mul_zero, drop_zero]
      intro hn
      have hz := congrArg length hn
      rw [length_take, length_nil] at hz
      omega
    rw [range_succ, flatMap_append, flatMap_singleton,
      jobSlice_of_le hm (by omega), append_left_eq_self] at hs
    exact hf (flatMap_eq_nil_iff.mp hs 0 (mem_range.mpr hm))
  · rintro (rfl | hl)
    · have hnl : ∀ jobIndex, jobSlice jobIndex jobTotal [] = [] := by
        intro jobIndex
        unfold jobSlice
        exact if_neg (Nat.not_lt_zero _)
      simp only [hnl]
      exact flatMap_eq_nil_iff.mpr (fun _ _ => rfl)
    · have hst : ∀ jobIndex < jobTotal, jobSize jobTotal tasks * jobIndex < tasks.length := by
        intro jobIndex hidx
        have hle : jobSize jobTotal tasks * jobIndex ≤ jobSize jobTotal tasks * (jobTotal - 1) :=
          Nat.mul_le_mul_left _ (by omega)
        omega
      rw [flatMap_jobSlice (Nat.le_refl _) hst]
      exact take_of_length_le (length_le_jobSize_mul tasks htotal)

end

def jobTask (taskId : String) : Task := { target := Target.new "app" taskId }

/-- Ten tasks for three jobs, of which the last one has two. -/
theorem three_jobs_partition :
    (range 3).flatMap (fun jobIndex =>
      jobSlice jobIndex 3 ((range 10).map (fun index => jobTask (toString index)))) =
      (range 10).map (fun index => jobTask (toString index)) :=
  (jobSlices_partition_iff (by decide)).mpr (.inr (by decide))

/-- Two tasks for three jobs: the last job runs both of them again. -/
theorem idle_job_runs_everything :
    (range 3).flatMap (fun jobIndex =>
      jobSlice jobIndex 3 [jobTask "build", jobTask "test"]) =
      [jobTask "build", jobTask "test", jobTask "build", jobTask "test"] := by
  decide

end Moon.Proofs
