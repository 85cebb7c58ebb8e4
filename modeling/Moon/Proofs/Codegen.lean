import Moon.Codegen
import Moon.Lib.Descent
import Moon.Lib.Digraph
import Moon.Lib.Except

/-! # Loading templates -/

namespace Moon.Proofs

open List Relation Moon.Lib

variable {V : Type} (g : CodeGenerator V)

/-- Templates, and those they extend. -/
def templateDescent : Descent Id where
  known id := (g.find id).isOk
  children id :=
    match g.find id with
    | .ok template => template.extendIds
    | .error _ => []

def succeeds {β ε : Type} (x : ExceptT ε Option β) : Option Bool := x.run.map Except.isOk

lemma succeeds_bind_pure {β γ ε : Type} (x : ExceptT ε Option β) (f : β → γ) :
    succeeds (x >>= fun b => pure (f b)) = succeeds x := by
  unfold succeeds
  rw [ExceptT.run_bind]
  cases x.run with
  | none => rfl
  | some r => cases r <;> rfl

lemma succeeds_mapM {β ε : Type} (f : Id → ExceptT ε Option β) (l : List Id) :
    succeeds (l.mapM f) =
      match l.find? (fun c => succeeds (f c) ≠ some true) with
      | none => some true
      | some c => succeeds (f c) := by
  induction l with
  | nil => rfl
  | cons a l ih =>
    rw [mapM_cons, find?_cons]
    cases hr : (f a).run with
    | none => simp [succeeds, ExceptT.run_bind, hr]
    | some r =>
      cases r with
      | error e => simp [succeeds, ExceptT.run_bind, hr, Except.isOk, Except.toBool]
      | ok b =>
        have ha : succeeds (f a) = some true := by simp [succeeds, hr, Except.isOk, Except.toBool]
        have hb : (f a >>= fun b => l.mapM f >>= fun bs => pure (b :: bs)).run =
            (l.mapM f >>= fun bs => pure (b :: bs)).run := by
          rw [ExceptT.run_bind, hr]
          rfl
        simp only [ha, ne_eq, not_true_eq_false, decide_false, ← ih]
        exact (congrArg (Option.map Except.isOk) hb).trans (succeeds_bind_pure _ _)

lemma run_templateDescent (n : Nat) (id : Id) :
    (templateDescent g).run n id = succeeds (g.getTemplate n id) := by
  induction n generalizing id with
  | zero => rfl
  | succ n ih =>
    rw [Descent.run]
    simp only [ih]
    cases hf : g.find id with
    | error e => simp [templateDescent, hf, CodeGenerator.getTemplate, succeeds, ExceptT.run_bind]
    | ok t =>
      have hg : g.getTemplate (n + 1) id = t.extendIds.mapM (g.getTemplate n) >>=
          fun extended => pure (extended.foldl Template.extendTemplate t) := by
        rw [CodeGenerator.getTemplate, hf]
        rfl
      rw [hg, succeeds_bind_pure, succeeds_mapM]
      simp only [templateDescent, hf]
      cases t.extendIds.find? _ with
      | none => rfl
      | some c => rfl

lemma mem_children {a c : Id} (h : c ∈ (templateDescent g).children a) :
    c ∈ g.templates.flatMap (·.2.extendIds) := by
  cases hf : g.find a with
  | error e => simp [templateDescent, hf] at h
  | ok t =>
    simp only [templateDescent, hf] at h
    obtain ⟨id, -, hl⟩ := bind_eq_ok hf
    cases hm : g.templates.lookup id with
    | none => simp [hm] at hl
    | some t' =>
      obtain ⟨l₁, l₂, he, -⟩ := lookup_eq_some_iff.mp hm
      rw [hm] at hl
      cases hl
      simp [he, h]

/-- A template is loaded, or an error is reported, if and only if the way from it to the first
template that cannot be loaded, and on from there, does not come back. -/
theorem template_loading_returns_iff (generator : CodeGenerator V) (id : String) :
    (∃ fuel result, (generator.getTemplate fuel id).run = some result) ↔
      ∀ other, ReflTransGen (templateDescent generator).Leads id other →
        ¬ TransGen (templateDescent generator).Leads other other := by
  have hr := Descent.exists_run_iff (d := templateDescent generator) (a := id)
  simp only [run_templateDescent, succeeds, ne_eq, Option.map_eq_none_iff] at hr
  rw [← acc_iff_no_cycle (generator.templates.flatMap (·.2.extendIds)).toFinset]
  · simpa only [← ne_eq, Option.ne_none_iff_exists'] using hr
  · rintro a c ⟨before, after, he, -⟩
    exact mem_toFinset.mpr (mem_children generator (he ▸ mem_append_right _ mem_cons_self))

def selfExtendingTemplate : CodeGenerator Unit where
  clean := .ok
  templates := [("app", { id := "app", extendIds := ["app"] })]

theorem self_extending_template_never_returns :
    (selfExtendingTemplate.find "app").isOk ∧
      ∀ fuel, (selfExtendingTemplate.getTemplate fuel "app").run = none := by
  refine ⟨rfl, fun fuel => ?_⟩
  induction fuel with
  | zero => rfl
  | succ fuel ih =>
    change (["app"].mapM (selfExtendingTemplate.getTemplate fuel) >>= fun _ => pure _).run = none
    rw [ExceptT.run_bind, mapM_cons, ExceptT.run_bind, ih]
    rfl

end Moon.Proofs
