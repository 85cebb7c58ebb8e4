import Mathlib.Logic.Function.Basic

/-!
# Runs of a machine with guarded transitions
-/

namespace Moon.Lib

variable {σ ε : Type}

/-- Takes the events in order, and fails if one of them is not enabled. -/
def exec (step : σ → ε → Option σ) : σ → List ε → Option σ
  | s, [] => some s
  | s, e :: es => (step s e).bind (fun s' => exec step s' es)

variable {es : List ε} {s : σ}

theorem exec_cons {step : σ → ε → Option σ} {s'' : σ} {e : ε} :
    exec step s (e :: es) = some s'' ↔ ∃ s', step s e = some s' ∧ exec step s' es = some s'' := by
  rw [exec, Option.bind_eq_some_iff]

variable {P : σ → Prop} {s' : σ}

/-- What holds at the start and is kept by every step holds at the end of every run. -/
theorem exec_invariant {step : σ → ε → Option σ}
    (hst : ∀ s e s', P s → step s e = some s' → P s') (hs : P s) (h : exec step s es = some s') :
    P s' := by
  induction es generalizing s with
  | nil =>
    cases h
    exact hs
  | cons e es ih =>
    obtain ⟨next, hn, hr⟩ := exec_cons.mp h
    exact ih (hst s e next hs hn) hr

/-- Every event of a run is taken in a state that meets a condition with it. -/
def Along (step : σ → ε → Option σ) (C : σ → ε → Prop) : σ → List ε → Prop
  | _, [] => True
  | s, e :: es => C s e ∧ ∀ s', step s e = some s' → Along step C s' es

variable {C : σ → ε → Prop}

theorem Along.cons {step : σ → ε → Option σ} {e : ε} (hc : C s e) (hs : step s e = some s')
    (hr : Along step C s' es) : Along step C s (e :: es) := by
  refine ⟨hc, fun next hn => ?_⟩
  cases hs.symm.trans hn
  exact hr

theorem Along.of_forall {step : σ → ε → Option σ} (h : ∀ e ∈ es, ∀ s, C s e) :
    Along step C s es := by
  induction es generalizing s with
  | nil => trivial
  | cons e es ih =>
    exact ⟨h e List.mem_cons_self s, fun _ _ => ih fun e he => h e (List.mem_cons_of_mem _ he)⟩

/-- What every step that meets a condition keeps holds at the end of every run along it. -/
theorem exec_invariant_along {step : σ → ε → Option σ}
    (hst : ∀ s e s', P s → C s e → step s e = some s' → P s') (hs : P s)
    (ha : Along step C s es) (h : exec step s es = some s') : P s' := by
  induction es generalizing s with
  | nil =>
    cases h
    exact hs
  | cons e es ih =>
    obtain ⟨next, hn, hr⟩ := exec_cons.mp h
    obtain ⟨hc, ha⟩ := ha
    exact ih (hst s e next hs hc hn) (ha next hn) hr

/-- A weight that every step along a condition lowers limits the length of the run. -/
theorem exec_length_le_along {step : σ → ε → Option σ} {weight : σ → Nat}
    (hst : ∀ s e s', P s → C s e → step s e = some s' → P s')
    (hw : ∀ s e s', P s → C s e → step s e = some s' → weight s' < weight s) (hs : P s)
    (ha : Along step C s es) (h : exec step s es = some s') : es.length + weight s' ≤ weight s := by
  induction es generalizing s with
  | nil =>
    cases h
    simp
  | cons e es ih =>
    obtain ⟨next, hn, hr⟩ := exec_cons.mp h
    obtain ⟨hc, ha⟩ := ha
    have hlat := ih (hst s e next hs hc hn) (ha next hn) hr
    have hlwr := hw s e next hs hc hn
    rw [List.length_cons]
    omega

/-- What holds of every process holds after one of them was set to a state where it does. -/
theorem forall_update_some {ι α : Type} [DecidableEq ι] {P : ι → α → Prop} {f : ι → Option α}
    (hf : ∀ i a, f i = some a → P i a) {i : ι} {a : α} (ha : P i a) (j : ι) (b : α)
    (h : Function.update f i (some a) j = some b) : P j b := by
  by_cases heq : j = i
  · subst heq
    rw [Function.update_self] at h
    cases h
    exact ha
  · rw [Function.update_of_ne heq] at h
    exact hf j b h

end Moon.Lib
