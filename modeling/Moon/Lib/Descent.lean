import Mathlib.Data.List.Basic

/-!
# Recursion into children

A recursion that visits the children of an element in order, up to the first one where it fails.
-/

namespace Moon.Lib

open List

structure Descent (α : Type) where
  known : α → Bool
  children : α → List α

namespace Descent

variable {α : Type} (d : Descent α)

/-- Whether the recursion succeeds, once the fuel suffices. -/
def run : Nat → α → Option Bool
  | 0, _ => none
  | n + 1, a =>
    match (d.children a).find? (fun c => run n c ≠ some true) with
    | none => some (d.known a)
    | some c => run n c

/-- All elements below are known, and there is no endless chain of them. -/
inductive Complete : α → Prop
  | intro {a : α} (hk : d.known a) (h : ∀ c ∈ d.children a, Complete c) : Complete a

/-- The first child that is not complete. -/
def Leads (a c : α) : Prop :=
  ∃ before after, d.children a = before ++ c :: after ∧
    (∀ b ∈ before, d.Complete b) ∧ ¬ d.Complete c

variable {d} {n m : Nat} {a c : α} {l : List α} {r : Bool}

theorem exists_first {p : α → Prop} (h : ¬ ∀ c ∈ l, p c) :
    ∃ before c after, l = before ++ c :: after ∧ (∀ b ∈ before, p b) ∧ ¬ p c := by
  classical
  obtain ⟨c, hf⟩ := Option.isSome_iff_exists.mp (find?_isSome (p := fun c => !decide (p c)) |>.mpr
    (by simpa using h))
  obtain ⟨hc, before, after, he, hb⟩ := find?_eq_some_iff_append.mp hf
  exact ⟨before, c, after, he, by simpa using hb, by simpa using hc⟩

theorem run_of_forall (h : ∀ c ∈ d.children a, d.run n c = some true) :
    d.run (n + 1) a = some (d.known a) := by
  rw [run, find?_eq_none.mpr (by simpa using h)]

theorem run_of_first {before after : List α} (he : d.children a = before ++ c :: after)
    (hb : ∀ b ∈ before, d.run n b = some true) (hc : d.run n c ≠ some true) :
    d.run (n + 1) a = d.run n c := by
  rw [run, he, find?_append, find?_eq_none.mpr (by simpa using hb), Option.none_or,
    find?_cons_of_pos (by simpa using hc)]

theorem run_succ (h : d.run n a = some r) : d.run (n + 1) a = some r := by
  induction n generalizing a r with
  | zero => cases h
  | succ n ih =>
    by_cases ht : ∀ c ∈ d.children a, d.run n c = some true
    · rw [run_of_forall ht] at h
      rw [run_of_forall (fun c hm => ih (ht c hm)), h]
    · obtain ⟨before, c, after, he, hb, hc⟩ := exists_first ht
      rw [run_of_first he hb hc] at h
      have hs := ih h
      rw [run_of_first he (fun b hm => ih (hb b hm)) (by rwa [hs, ← h]), hs]

theorem run_mono (hl : n ≤ m) (h : d.run n a = some r) : d.run m a = some r := by
  induction hl with
  | refl => exact h
  | step _ ih => exact run_succ ih

theorem complete_of_run (h : d.run n a = some true) : d.Complete a := by
  induction n generalizing a with
  | zero => cases h
  | succ n ih =>
    by_cases ht : ∀ c ∈ d.children a, d.run n c = some true
    · rw [run_of_forall ht] at h
      exact .intro (Option.some.inj h) (fun c hm => ih (ht c hm))
    · obtain ⟨before, c, after, he, hb, hc⟩ := exists_first ht
      exact absurd (run_of_first he hb hc ▸ h) hc

theorem exists_run_forall (h : ∀ c ∈ l, ∃ n, d.run n c = some true) :
    ∃ n, ∀ c ∈ l, d.run n c = some true := by
  induction l with
  | nil => exact ⟨0, by simp⟩
  | cons c l ih =>
    obtain ⟨⟨n, hn⟩, hl⟩ := forall_mem_cons.mp h
    obtain ⟨m, hm⟩ := ih hl
    exact ⟨max n m, forall_mem_cons.mpr ⟨run_mono (Nat.le_max_left n m) hn,
      fun b hb => run_mono (Nat.le_max_right n m) (hm b hb)⟩⟩

theorem Complete.exists_run (h : d.Complete a) : ∃ n, d.run n a = some true := by
  induction h with
  | intro hk _ ih =>
    obtain ⟨n, hn⟩ := exists_run_forall ih
    exact ⟨n + 1, (run_of_forall hn).trans (congrArg some hk)⟩

theorem acc_of_run (h : d.run n a ≠ none) : Acc (fun c a => d.Leads a c) a := by
  induction n generalizing a with
  | zero => exact absurd rfl h
  | succ n ih =>
    refine Acc.intro a (fun c hl => ih ?_)
    obtain ⟨before, after, he, hb, hc⟩ := hl
    have hc' : d.run n c ≠ some true := fun h => hc (complete_of_run h)
    by_cases ht : ∀ b ∈ before, d.run n b = some true
    · rwa [run_of_first he ht hc'] at h
    · -- a child before it that succeeds later is not decided yet
      obtain ⟨left, b, right, rfl, hl, hbt⟩ := exists_first ht
      rw [append_assoc] at he
      rw [run_of_first he hl hbt] at h
      obtain ⟨r, hr⟩ := Option.ne_none_iff_exists'.mp h
      obtain ⟨m, hm⟩ := (hb b (by simp)).exists_run
      have hrm := run_mono (Nat.le_max_left n m) hr
      rw [run_mono (Nat.le_max_right n m) hm] at hrm
      exact absurd (hr.trans hrm.symm) hbt

/-- The recursion ends if and only if following the first child that is not complete does. -/
theorem exists_run_iff : (∃ n, d.run n a ≠ none) ↔ Acc (fun c a => d.Leads a c) a := by
  refine ⟨fun ⟨n, h⟩ => acc_of_run h, fun h => ?_⟩
  induction h with
  | intro a _ ih =>
    by_cases ha : ∀ c ∈ d.children a, d.Complete c
    · obtain ⟨n, hn⟩ := exists_run_forall (fun c hc => (ha c hc).exists_run)
      exact ⟨n + 1, by simp [run_of_forall hn]⟩
    · obtain ⟨before, c, after, he, hb, hc⟩ := exists_first ha
      obtain ⟨n, hn⟩ := ih c ⟨before, after, he, hb, hc⟩
      obtain ⟨m, hm⟩ := exists_run_forall (fun b hm => (hb b hm).exists_run)
      obtain ⟨r, hr⟩ := Option.ne_none_iff_exists'.mp hn
      refine ⟨max n m + 1, ?_⟩
      rw [run_of_first he (fun b hb => run_mono (Nat.le_max_right n m) (hm b hb))
        (fun h => hc (complete_of_run h)), run_mono (Nat.le_max_left n m) hr]
      exact Option.some_ne_none r

end Descent

end Moon.Lib
