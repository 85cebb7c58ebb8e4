import Mathlib.Logic.Relation
import Moon.Lib.Descent
import Moon.TaskExtends

/-! # Chains of tasks that extend each other -/

namespace Moon.Proofs

open Relation List Option Moon.Lib

variable {S : Type}

def extendedTasks (entries : List (ConfigChain S)) : List Id :=
  entries.filterMap (·.config.extendsTask)

section

variable {run : Id → ExtractM (List (ConfigChain S))} {taskId : Id} {es s r : List (ConfigChain S)}

variable (run) in
def canExtend (target : Id) : Bool :=
  match (run target).run with
  | some (.ok (_ :: _)) => true
  | _ => false

variable {e : ConfigChain S}

lemma extract_of_none (h : e.config.extendsTask = none) :
    (extract run taskId s e).run = some (.ok (s ++ [e])) := by
  unfold extract
  rw [h]
  rfl

lemma extract_of_some {t : Id} (h : e.config.extendsTask = some t) :
    (extract run taskId s e).run =
      match (run t).run with
      | none => none
      | some (.error error) => some (.error error)
      | some (.ok []) => some (.error ⟨taskId, t⟩)
      | some (.ok (first :: rest)) => some (.ok (s ++ first :: rest ++ [e])) := by
  unfold extract
  rw [h]
  simp only [ExceptT.run_bind]
  cases (run t).run with
  | none => rfl
  | some r =>
    cases r with
    | error error => rfl
    | ok chain => cases chain <;> rfl

/-- The loop over configurations is decided by the first one that extends a task which cannot be
extended. -/
lemma isOk_foldlM_extract (s : List (ConfigChain S)) :
    (es.foldlM (extract run taskId) s).run.map Except.isOk =
      match (extendedTasks es).find? (fun t => !canExtend run t) with
      | none => some true
      | some t => (run t).run.map (fun _ => false) := by
  induction es generalizing s with
  | nil => rfl
  | cons e es ih =>
    rw [foldlM_cons, ExceptT.run_bind]
    cases hex : e.config.extendsTask with
    | none =>
      rw [extract_of_none hex]
      simpa [extendedTasks, hex] using ih (s ++ [e])
    | some t =>
      have ht : extendedTasks (e :: es) = t :: extendedTasks es := by simp [extendedTasks, hex]
      rw [extract_of_some hex, ht, find?_cons, canExtend]
      cases hr : (run t).run with
      | none => simp [hr]
      | some r =>
        cases r with
        | error error => simp [hr, Except.isOk, Except.toBool]
        | ok chain =>
          cases chain with
          | nil => simp [hr, Except.isOk, Except.toBool]
          | cons first rest => exact ih _

lemma length_extract (h : (extract run taskId s e).run = some (.ok r)) :
    s.length < r.length := by
  cases hex : e.config.extendsTask with
  | none =>
    rw [extract_of_none hex] at h
    cases h
    simp
  | some t =>
    rw [extract_of_some hex] at h
    split at h
    all_goals cases h
    simp

lemma length_foldlM_extract (h : (es.foldlM (extract run taskId) s).run = some (.ok r)) :
    s.length + es.length ≤ r.length := by
  induction es generalizing s with
  | nil =>
    cases h
    simp
  | cons e es ih =>
    rw [foldlM_cons, ExceptT.run_bind] at h
    cases hr : (extract run taskId s e).run with
    | none =>
      rw [hr] at h
      cases h
    | some r =>
      rw [hr] at h
      cases r with
      | error error => cases h
      | ok s' =>
        have hl := ih h
        have := length_extract hr
        rw [length_cons]
        omega

end

section

variable {ts : ConfiguredTasks S} {taskId t : Id}

variable (ts) in
def Extends (taskId target : Id) : Prop := target ∈ extendedTasks (ts.configs taskId)

variable (ts) in
/-- All that the task extends exists, and the chains end. -/
structure Extendable (target : Id) : Prop where
  known : ∀ other, ReflTransGen (Extends ts) target other → ts.configs other ≠ []
  ends : Acc (fun other taskId => Extends ts taskId other) target

variable (ts) in
/-- The first task extended that cannot be merged. -/
def Leads (taskId target : Id) : Prop :=
  ∃ before after, extendedTasks (ts.configs taskId) = before ++ target :: after ∧
    (∀ other ∈ before, Extendable ts other) ∧ ¬ Extendable ts target

lemma extendable_of_all (hk : ts.configs taskId ≠ [])
    (h : ∀ t, Extends ts taskId t → Extendable ts t) : Extendable ts taskId where
  known other hp := by
    rcases ReflTransGen.cases_head hp with rfl | ⟨t, hex, hr⟩
    · exact hk
    · exact (h t hex).known other hr
  ends := Acc.intro taskId (fun t hex => (h t hex).ends)

variable (ts) in
def extendsDescent : Descent Id where
  known id := !(ts.configs id).isEmpty
  children id := extendedTasks (ts.configs id)

lemma complete_iff_extendable : (extendsDescent ts).Complete t ↔ Extendable ts t := by
  constructor
  · intro h
    induction h with
    | intro hk _ ih => exact extendable_of_all (by simpa [extendsDescent] using hk) ih
  · rintro ⟨hk, hen⟩
    induction hen with
    | intro t _ ih =>
      refine .intro (by simpa [extendsDescent] using hk t .refl) (fun o ho => ?_)
      exact ih o ho (fun last hp => hk last (.head ho hp))

variable (ts) in
lemma run_extendsDescent (n : Nat) (taskId : Id) :
    (extendsDescent ts).run n taskId =
      (extractConfig ts n taskId).run.map (fun _ => canExtend (extractConfig ts n) taskId) := by
  induction n generalizing taskId with
  | zero => rfl
  | succ n ih =>
    have hp : (fun c => decide ((extendsDescent ts).run n c ≠ some true)) =
        fun c => !canExtend (extractConfig ts n) c := by
      funext c
      rw [ih]
      cases hr : (extractConfig ts n c).run with
      | none => simp [canExtend, hr]
      | some r => cases canExtend (extractConfig ts n) c <;> rfl
    have hi : (extractConfig ts (n + 1) taskId).run.map Except.isOk = _ := isOk_foldlM_extract []
    have hk : (extendsDescent ts).known taskId = !(ts.configs taskId).isEmpty := rfl
    have hch : (extendsDescent ts).children taskId = extendedTasks (ts.configs taskId) := rfl
    rw [Descent.run, hp, hk, hch]
    cases hf : (extendedTasks (ts.configs taskId)).find?
        (fun t => !canExtend (extractConfig ts n) t) with
    | some t =>
      have hc : canExtend (extractConfig ts n) t = false := by simpa using find?_some hf
      rw [hf] at hi
      simp only [ih, hc, ← hi]
      cases hr : (extractConfig ts (n + 1) taskId).run with
      | none => rfl
      | some r =>
        cases r with
        | error error => simp [canExtend, hr, Except.isOk, Except.toBool]
        | ok chain =>
          rw [hr] at hi
          obtain ⟨_, _, hb⟩ := map_eq_some_iff.mp hi.symm
          cases hb
    | none =>
      rw [hf] at hi
      obtain ⟨r, hr, hok⟩ := map_eq_some_iff.mp hi
      cases r with
      | error error => cases hok
      | ok chain =>
        have hl := length_foldlM_extract hr
        cases chain with
        | nil =>
          have he : ts.configs taskId = [] := by simpa using hl
          simp [canExtend, hr, he]
        | cons first rest =>
          have he : ts.configs taskId ≠ [] := by
            intro he
            simp [extractConfig, he] at hr
          simp [canExtend, hr, he]

/-- The chain of a task is found, or an error is, if and only if following the first task that
cannot be extended comes to an end. -/
theorem inheritChain_returns_iff (tasks : ConfiguredTasks S) (id : Id) :
    (∃ fuel result, getConfigInheritChain tasks fuel id = some result) ↔
      Acc (fun target taskId => Leads tasks taskId target) id := by
  have hl (a c : Id) : (extendsDescent tasks).Leads a c ↔ Leads tasks a c := by
    simp only [Descent.Leads, complete_iff_extendable, Leads]
    rfl
  have hr := Descent.exists_run_iff (d := extendsDescent tasks) (a := id)
  simp only [hl, run_extendsDescent, ne_eq, Option.map_eq_none_iff] at hr
  simpa only [getConfigInheritChain, ← ne_eq, ne_none_iff_exists'] using hr

end

def selfExtending : ConfiguredTasks Unit where
  localTasks id := if id = "build" then some ⟨some "build", ()⟩ else none

theorem self_extending_never_returns :
    selfExtending.localTasks "build" = some ⟨some "build", ()⟩ ∧
      ∀ fuel, getConfigInheritChain selfExtending fuel "build" = none := by
  refine ⟨rfl, fun fuel => ?_⟩
  induction fuel with
  | zero => rfl
  | succ fuel ih =>
    change (extract (extractConfig selfExtending fuel) "build" [] ⟨⟨some "build", ()⟩, false⟩ >>=
      fun s => pure s).run = none
    have hr : (extractConfig selfExtending fuel "build").run = none := ih
    unfold extract
    simp only [ExceptT.run_bind, hr]
    rfl

end Moon.Proofs
