import Mathlib.Data.List.Basic

/-!
# Computations that come to an end

A computation with loops is a family over its fuel. It finishes if there is enough fuel for it from
every state, and more does not change the result.
-/

namespace Moon.Lib

open List

/-- A computation that may not return at all, or with an error. -/
abbrev LoopM (σ ε : Type) := StateT σ (ExceptT ε Option)

variable {σ ε α β : Type}

def LoopM.endless : LoopM σ ε α := fun _ => .mk none

def LoopM.ofExcept (x : Except ε α) : LoopM σ ε α := fun s => .mk (some (x.map (·, s)))

/-- With enough fuel there is a result, and what is returned satisfies `Q`. -/
def Finishes (f : Nat → LoopM σ ε α) (Q : α → Prop) : Prop :=
  ∀ s, ∃ fuel result, (∀ more, fuel ≤ more → ((f more).run s).run = some result) ∧
    ∀ a s', result = .ok (a, s') → Q a

namespace Finishes

variable {f : Nat → LoopM σ ε α} {P Q : α → Prop}

theorem mono (h : Finishes f P) (hPQ : ∀ a, P a → Q a) : Finishes f Q := by
  intro s
  obtain ⟨fuel, result, hr, hP⟩ := h s
  exact ⟨fuel, result, hr, fun a s' ha => hPQ a (hP a s' ha)⟩

theorem pure {a : α} (h : Q a) : Finishes (fun _ => (Pure.pure a : LoopM σ ε α)) Q := by
  intro s
  refine ⟨0, .ok (a, s), fun _ _ => rfl, fun b s' hb => ?_⟩
  cases hb
  exact h

theorem throw (e : ε) (Q : α → Prop) :
    Finishes (fun _ => (MonadExcept.throw e : LoopM σ ε α)) Q := by
  intro s
  exact ⟨0, .error e, fun _ _ => rfl, fun _ _ ha => by cases ha⟩

theorem ofExcept {x : Except ε α} (h : ∀ a, x = .ok a → Q a) :
    Finishes (fun _ => (LoopM.ofExcept x : LoopM σ ε α)) Q := by
  intro s
  refine ⟨0, x.map (·, s), fun _ _ => rfl, fun a s' ha => ?_⟩
  cases x with
  | error e => cases ha
  | ok b =>
    cases ha
    exact h _ rfl

theorem state {act : σ → α × σ} (h : ∀ s, Q (act s).1) :
    Finishes (fun _ => (fun s => Pure.pure (act s) : LoopM σ ε α)) Q := by
  intro s
  refine ⟨0, .ok (act s), fun _ _ => rfl, fun a s' ha => ?_⟩
  have hf : (act s).1 = a := congrArg Prod.fst (Except.ok.inj ha)
  exact hf ▸ h s

theorem bind {g : Nat → α → LoopM σ ε β} {R : β → Prop} (hf : Finishes f Q)
    (hg : ∀ a, Q a → Finishes (fun fuel => g fuel a) R) :
    Finishes (fun fuel => f fuel >>= g fuel) R := by
  intro s
  obtain ⟨fuel, result, hrs, hQ⟩ := hf s
  have hr : ∀ more, fuel ≤ more → ((f more >>= g more).run s).run =
      (match result with
        | .error e => some (.error e)
        | .ok (a, s') => ((g more a).run s').run) := by
    intro more hm
    rw [StateT.run_bind, ExceptT.run_bind, hrs more hm]
    cases result with
    | error e => rfl
    | ok found => rfl
  cases result with
  | error e => exact ⟨fuel, .error e, hr, fun _ _ hb => by cases hb⟩
  | ok found =>
    obtain ⟨fuel', result', hr', hR⟩ := hg found.1 (hQ found.1 found.2 rfl) found.2
    refine ⟨max fuel fuel', result', fun more hm => ?_, hR⟩
    rw [hr more (Nat.le_trans (Nat.le_max_left _ _) hm)]
    exact hr' more (Nat.le_trans (Nat.le_max_right _ _) hm)

theorem succ (h : Finishes (fun fuel => f (fuel + 1)) Q) : Finishes f Q := by
  intro s
  obtain ⟨fuel, result, hr, hQ⟩ := h s
  refine ⟨fuel + 1, result, fun more hmr => ?_, hQ⟩
  obtain ⟨less, rfl⟩ : ∃ less, more = less + 1 := ⟨more - 1, by omega⟩
  exact hr less (by omega)

theorem foldlM {g : Nat → α → β → LoopM σ ε α} {l : List β} {init : α} (hi : Q init)
    (h : ∀ acc, Q acc → ∀ x ∈ l, Finishes (fun fuel => g fuel acc x) Q) :
    Finishes (fun fuel => l.foldlM (g fuel) init) Q := by
  induction l generalizing init with
  | nil => exact pure hi
  | cons x l ih =>
    simp only [foldlM_cons]
    exact (h init hi x mem_cons_self).bind (fun acc ha =>
      ih ha (fun acc ha y hy => h acc ha y (mem_cons_of_mem x hy)))

theorem mapM {g : Nat → α → LoopM σ ε β} {R : β → Prop} {l : List α}
    (h : ∀ a ∈ l, Finishes (fun fuel => g fuel a) R) :
    Finishes (fun fuel => l.mapM (g fuel)) (fun bs => ∀ b ∈ bs, R b) := by
  induction l with
  | nil =>
    simp only [mapM_nil]
    exact pure (by simp)
  | cons a l ih =>
    simp only [mapM_cons]
    refine (h a mem_cons_self).bind (fun b hb => ?_)
    refine (ih (fun x hx => h x (mem_cons_of_mem a hx))).bind (fun bs hbs => pure ?_)
    exact forall_mem_cons.mpr ⟨hb, hbs⟩

end Finishes

end Moon.Lib
