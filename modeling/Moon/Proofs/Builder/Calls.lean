import Moon.Proofs.Builder.Outline

/-! # Calls of the builder -/

namespace Moon.Proofs.Builder

open Moon.Lib ActionGraphBuilder List

variable {A : Type}

/-- The tasks that the locators name. -/
def requestedTasks (env : BuilderEnv A) (locators : List TargetLocator) : List Task :=
  match locators.mapM (fun locator =>
    env.workspace.resolveTasksFromTargetLocator env.allQuery locator false) with
  | .ok ts => ts.flatten
  | .error _ => []

variable {ls : List TargetLocator} {t : Task} {env : BuilderEnv A}

lemma mem_requestedTasks_known (h : t ∈ requestedTasks env ls) : Known env t := by
  unfold requestedTasks at h
  cases hr : ls.mapM (fun locator =>
    env.workspace.resolveTasksFromTargetLocator env.allQuery locator false) with
  | error error => simp [hr] at h
  | ok l =>
    rw [hr] at h
    obtain ⟨list, hls, ht⟩ := mem_flatten.mp h
    obtain ⟨locator, -, hl⟩ := mem_of_mapM_eq_ok hr hls
    exact locator_known hl ht

lemma mem_requestedTasks_iff (h : ∃ l, ls.mapM (fun lo =>
      env.workspace.resolveTasksFromTargetLocator env.allQuery lo false) = .ok l)
    (t : Task) : t ∈ requestedTasks env ls ↔
      ∃ lo ∈ ls, ∃ ts, env.workspace.resolveTasksFromTargetLocator env.allQuery
        lo false = .ok ts ∧ t ∈ ts := by
  obtain ⟨l, hls⟩ := h
  unfold requestedTasks
  rw [hls]
  constructor
  · intro ht
    obtain ⟨ts, hts, hm⟩ := mem_flatten.mp ht
    obtain ⟨lo, hl, hr⟩ := mem_of_mapM_eq_ok hls hts
    exact ⟨lo, hl, ts, hr, hm⟩
  · rintro ⟨lo, hl, ts, hr, hm⟩
    obtain ⟨tasks', hr', ht'⟩ := mapM_eq_ok_mem hls hl
    rw [hr] at hr'
    cases hr'
    exact mem_flatten.mpr ⟨ts, ht', hm⟩

variable {n : Nat} {I : ActionGraphBuilder A → Prop}

section

def SameButMarks (b b' : ActionGraphBuilder A) : Prop := b' = { b with affected := b'.affected }

variable {b b' : ActionGraphBuilder A}

lemma SameButMarks.trans {b'' : ActionGraphBuilder A} (h : SameButMarks b b')
    (h' : SameButMarks b' b'') : SameButMarks b b'' := by
  unfold SameButMarks at h h' ⊢
  rw [h', h]

lemma trackRequested_spec (reqs : RunRequirements) (ts : List Task) (b : ActionGraphBuilder A) :
    Triple (fun s => s = b) (trackRequested env reqs ts)
      (fun _ b' => SameButMarks b b') (fun _ _ => True) := by
  unfold trackRequested
  apply Triple.get_bind
  rintro s rfl
  cases s.affected with
  | none =>
    apply Triple.pure
    rintro s' rfl
    rfl
  | some ms =>
    apply Triple.ite
    · intro _
      apply Triple.pure
      rintro s' rfl
      rfl
    · intro _
      apply Triple.orFail_bind
      · intro ms' _
        apply Triple.modify
        rintro s' rfl
        rfl
      · exact fun _ _ _ => trivial

variable {reqs : RunRequirements}

lemma trackRequested_run_eq_ok {ts : List Task}
    (h : (trackRequested env reqs ts).run b = .ok () b') :
    (b.affected = none ∧ b' = b) ∨ ∃ ms, b.affected = some ms ∧
      ((reqs.skipAffected ∧ b' = b) ∨ (reqs.skipAffected = false ∧
        ∃ ms', env.tracker.trackTasks ms reqs.includeRelations ts = .ok ms' ∧
          b' = { b with affected := some ms' })) := by
  unfold trackRequested at h
  obtain ⟨b₀, s, hg, h⟩ := run_bind_eq_ok h
  cases hg
  cases hm : b.affected with
  | none =>
    rw [hm] at h
    cases h
    exact .inl ⟨rfl, rfl⟩
  | some ms =>
    rw [hm] at h
    refine .inr ⟨ms, rfl, ?_⟩
    cases hs : reqs.skipAffected with
    | true =>
      simp only [hs, if_true] at h
      cases h
      exact .inl ⟨rfl, rfl⟩
    | false =>
      simp only [hs, Bool.false_eq_true, if_false] at h
      obtain ⟨ms', b₁, ht, hst⟩ := run_bind_eq_ok h
      obtain ⟨hm', rfl⟩ := orFail_run_eq_ok ht
      cases hst
      exact .inr ⟨rfl, ms', hm', rfl⟩

lemma isTaskAffected_of_skip {a : Bool} (hs : reqs.skipAffected)
    (h : (isTaskAffected env t reqs).run b = .ok a b') : a ∧ b' = b := by
  unfold isTaskAffected checkAffected at h
  obtain ⟨b₀, s, hg, h⟩ := run_bind_eq_ok h
  cases hg
  cases hm : b.affected with
  | none =>
    rw [hm] at h
    cases h
    exact ⟨rfl, rfl⟩
  | some ms =>
    rw [hm] at h
    simp only [hs, Bool.true_or, if_true] at h
    cases h
    exact ⟨rfl, rfl⟩

lemma isTaskAffected_run_eq_ok {a : Bool} (hs : reqs.skipAffected = false)
    (h : (isTaskAffected env t reqs).run b = .ok a b') :
    (b.affected = none ∧ a ∧ b' = b) ∨ ∃ ms, b.affected = some ms ∧
      ((env.tracker.isTaskMarked ms reqs.includeRelations t ∧ a ∧ b' = b) ∨
        (env.tracker.isTaskMarked ms reqs.includeRelations t = false ∧
          ((env.tracker.affectTask ms t = .ok none ∧ a = false ∧ b' = b) ∨
            ∃ ms', env.tracker.affectTask ms t = .ok (some ms') ∧ a ∧
              b'.affected = some ms'))) := by
  unfold isTaskAffected checkAffected at h
  obtain ⟨b₀, s, hg, h⟩ := run_bind_eq_ok h
  cases hg
  cases hmk : b.affected with
  | none =>
    rw [hmk] at h
    cases h
    exact .inl ⟨rfl, rfl, rfl⟩
  | some ms =>
    rw [hmk] at h
    refine .inr ⟨ms, rfl, ?_⟩
    cases hm : env.tracker.isTaskMarked ms reqs.includeRelations t with
    | true =>
      simp only [hs, hm, Bool.or_true, if_true] at h
      cases h
      exact .inl ⟨rfl, rfl, rfl⟩
    | false =>
      simp only [hs, hm, Bool.or_self, Bool.false_eq_true, if_false] at h
      refine .inr ⟨rfl, ?_⟩
      obtain ⟨f, b₁, hc, h⟩ := run_bind_eq_ok h
      obtain ⟨hf, rfl⟩ := orFail_run_eq_ok hc
      cases f with
      | none =>
        cases h
        exact .inl ⟨hf, rfl, rfl⟩
      | some ms' =>
        cases h
        exact .inr ⟨ms', hf, rfl, rfl⟩

lemma filterAffected_spec (reqs : RunRequirements) (ts : List Task) (b : ActionGraphBuilder A) :
    Triple (fun s => s = b) (filterAffected env reqs ts)
      (fun r b' => SameButMarks b b' ∧ r ⊆ ts) (fun _ _ => True) := by
  induction ts generalizing b with
  | nil =>
    apply Triple.pure
    rintro s rfl
    exact ⟨rfl, List.Subset.refl _⟩
  | cons t ts ih =>
    unfold filterAffected
    apply Triple.bind_at ((checkAffected_spec reqs _ _).conseq (fun _ h => h) (fun _ _ h => h.rest)
      (fun _ _ _ => trivial))
    intro a b₁ (hs₁ : SameButMarks b b₁)
    apply Triple.bind_at (ih b₁)
    rintro r b₂ ⟨hs₂, hs⟩
    apply Triple.pure
    rintro s rfl
    refine ⟨hs₁.trans hs₂, ?_⟩
    cases a with
    | true => exact cons_subset_cons _ hs
    | false => exact subset_cons_of_subset _ hs

lemma jobSlice_subset (j jo : Nat) (ts : List Task) : jobSlice j jo ts ⊆ ts := by
  have hs (start stop : Nat) : (ts.take stop).drop start ⊆ ts :=
    List.Subset.trans (drop_subset _ _) (take_subset _ _)
  unfold jobSlice
  dsimp only
  split_ifs <;>
    first | exact hs _ _ | exact drop_subset _ _ | exact List.Subset.refl _

lemma partitionTasks_spec (reqs : RunRequirements) (ts : List Task) (b : ActionGraphBuilder A) :
    Triple (fun s => s = b) (partitionTasks env reqs ts)
      (fun r b' => SameButMarks b b' ∧ r.1 ⊆ ts) (fun _ _ => True) := by
  have ha (size : Option Nat) : Triple (fun s => s = b)
      (pure (ts, size) : BuildM A (List Task × Option Nat))
      (fun r b' => SameButMarks b b' ∧ r.1 ⊆ ts) (fun _ _ => True) := by
    apply Triple.pure
    rintro s rfl
    exact ⟨rfl, List.Subset.refl _⟩
  unfold partitionTasks
  cases reqs.job with
  | none => exact ha none
  | some j =>
    cases reqs.jobTotal with
    | none => exact ha none
    | some jo =>
      apply Triple.ite
      · intro _
        exact ha none
      · intro _
        apply Triple.ite
        · intro _
          exact Triple.throw (fun _ _ => trivial)
        · intro _
          apply Triple.bind_at (M := fun re b' => SameButMarks b b' ∧ re ⊆ ts)
          · unfold jobTasks
            apply Triple.ite
            · intro _
              apply Triple.pure
              rintro s rfl
              exact ⟨rfl, List.Subset.refl _⟩
            · intro _
              exact filterAffected_spec reqs ts b
          · rintro re b' ⟨hsm, hs⟩
            apply Triple.pure
            rintro s rfl
            exact ⟨hsm, List.Subset.trans (jobSlice_subset j jo re) hs⟩

lemma runEach_rule {I : List Task → ActionGraphBuilder A → Prop}
    {E : ActionGraphError → ActionGraphBuilder A → Prop} (ts : List Task)
    (hr : ∀ d t rest, ts = d ++ t :: rest →
      Triple (I d) (runTask env n t reqs) (fun _ => I (d ++ [t])) E) :
    Triple (I []) (runEach env n reqs ts) (fun _ => I ts) E := by
  have hl (todo d : List Task) (hs : ts = d ++ todo) :
      Triple (I d) (runEach env n reqs todo) (fun _ => I ts) E := by
    induction todo generalizing d with
    | nil =>
      apply Triple.pure
      intro b hb
      rw [hs, append_nil]
      exact hb
    | cons t todo ih =>
      unfold runEach
      apply Triple.bind (hr d t todo hs)
      intro i
      apply Triple.bind (ih (d ++ [t]) (by rw [hs]; simp))
      intro targets
      exact Triple.pure (fun _ hb => hb)
  exact hl ts [] rfl

lemma runTasks_rule
    (hm : ∀ b b', SameButMarks b b' → I b → I b') (hrn : ∀ t ∈ requestedTasks env ls,
      Triple I (runTask env n t reqs) (fun _ => I) (fun _ _ => True)) :
    Triple I (runTasks env n ls reqs) (fun _ => I) (fun _ _ => True) := by
  intro b hb
  unfold runTasks
  refine Triple.orFail_bind (P := fun s => s = b) ?_ (fun _ _ _ => trivial) b rfl
  intro l hl
  have hr : requestedTasks env ls = l.flatten := by
    unfold requestedTasks
    rw [hl]
  apply Triple.bind_at (trackRequested_spec reqs l.flatten b)
  intro _ b₁ hs₁
  apply Triple.bind_at (partitionTasks_spec reqs l.flatten b₁)
  rintro ⟨ts, size⟩ b₂ ⟨hs₂, hsb⟩
  apply Triple.bind (M := fun _ => I)
  · apply (runEach_rule (I := fun _ => I) (E := fun _ _ => True) ts ?_).pre _
    · intro d t rest hs
      apply hrn
      rw [hr]
      apply hsb
      change t ∈ ts
      rw [hs]
      simp
    · rintro s rfl
      exact hm b s (hs₁.trans hs₂) hb
  · intro targets
    exact Triple.pure (fun _ hb => hb)

lemma runTasks_run_eq_ok (hj : reqs.job = none ∨ reqs.jobTotal = none ∨ reqs.jobTotal = some 0)
    {p : RunPartition} (h : (runTasks env n ls reqs).run b = .ok p b') :
    (∃ l, ls.mapM (fun lo =>
      env.workspace.resolveTasksFromTargetLocator env.allQuery lo false) = .ok l) ∧
    ∃ b₁ targets,
      (trackRequested env reqs (requestedTasks env ls)).run b = .ok () b₁ ∧
      (runEach env n reqs (requestedTasks env ls)).run b₁ = .ok targets b' := by
  obtain ⟨l, b₀, hrsl, hr⟩ := run_bind_eq_ok h
  obtain ⟨hl, rfl⟩ := orFail_run_eq_ok hrsl
  have hrq : requestedTasks env ls = l.flatten := by
    unfold requestedTasks
    rw [hl]
  obtain ⟨_, b₁, htr, hr⟩ := run_bind_eq_ok hr
  obtain ⟨⟨ts, size⟩, b₂, hp, hr⟩ := run_bind_eq_ok hr
  obtain ⟨targets, b₃, hrn, hrt⟩ := run_bind_eq_ok hr
  cases hrt
  have hw : partitionTasks env reqs l.flatten = pure (l.flatten, none) := by
    unfold partitionTasks
    rcases hj with hj | ht | ht
    · rw [hj]
    · rw [ht]
      cases reqs.job <;> rfl
    · rw [ht]
      cases reqs.job <;> rfl
  rw [hw] at hp
  cases hp
  rw [hrq]
  exact ⟨⟨l, hl⟩, b₁, targets, htr, hrn⟩

end

/-- The calls by which a command asks for tasks. -/
inductive BuilderCall
  | runTask (task : Task) (reqs : RunRequirements)
  | runTasks (locators : List TargetLocator) (reqs : RunRequirements)

def BuilderCall.requests (env : BuilderEnv A) : BuilderCall → List TaskVisit
  | .runTask task reqs => [{ task := task, reqs := reqs }]
  | .runTasks ls reqs =>
    (requestedTasks env ls).map (fun task => { task := task, reqs := reqs })

def BuilderCall.run (env : BuilderEnv A) (fuel : Nat) : BuilderCall → BuildM A Unit
  | .runTask t reqs => do
    let _ ← ActionGraphBuilder.runTask env fuel t reqs
  | .runTasks ls reqs => do
    let _ ← ActionGraphBuilder.runTasks env fuel ls reqs

def runBuilder (env : BuilderEnv A) (fuel : Nat) : List BuilderCall → BuildM A Unit
  | [] => return ()
  | call :: cs => do
    call.run env fuel
    runBuilder env fuel cs

lemma runBuilder_rule {cs : List BuilderCall} (hm : ∀ b b', SameButMarks b b' → I b → I b')
    (hr : ∀ c ∈ cs, ∀ visit ∈ c.requests env,
      Triple I (runTask env n visit.task visit.reqs) (fun _ => I) (fun _ _ => True)) :
    Triple I (runBuilder env n cs) (fun _ => I) (fun _ _ => True) := by
  induction cs with
  | nil => exact Triple.pure (fun _ hb => hb)
  | cons c cs ih =>
    unfold runBuilder
    apply Triple.bind (M := fun _ => I)
    · cases c with
      | runTask t reqs =>
        apply Triple.bind (hr _ mem_cons_self { task := t, reqs := reqs } (mem_singleton_self _))
        intro _
        exact Triple.pure (fun _ hb => hb)
      | runTasks ls reqs =>
        apply Triple.bind (runTasks_rule hm ?_)
        · intro _
          exact Triple.pure (fun _ hb => hb)
        · intro t ht
          exact hr _ mem_cons_self { task := t, reqs := reqs } (mem_map_of_mem ht)
    · intro _
      exact ih (fun o ho => hr o (mem_cons_of_mem _ ho))

end Moon.Proofs.Builder
