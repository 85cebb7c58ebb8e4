import Mathlib.Data.Nat.Notation

/-!
# Pre- and postconditions of stateful computations that may fail

A computation in `EStateM ε σ` keeps the state it has reached when it fails, so a triple
has a postcondition for each way to end.
-/

namespace Moon.Lib

variable {ε σ α β : Type}

/-- Started in `P`, the computation returns in `Q` or fails in `E`. -/
def Triple (P : σ → Prop) (x : EStateM ε σ α) (Q : α → σ → Prop) (E : ε → σ → Prop) : Prop :=
  ∀ s, P s →
    match x.run s with
    | .ok a s' => Q a s'
    | .error e s' => E e s'

variable {x : EStateM ε σ α} {f : α → EStateM ε σ β}

namespace Triple

variable {P P' : σ → Prop} {E E' : ε → σ → Prop}

variable {Q : α → σ → Prop}

theorem pure {a : α} (h : ∀ s, P s → Q a s) : Triple P (pure a : EStateM ε σ α) Q E :=
  fun s hs => h s hs

theorem throw {e : ε} (h : ∀ s, P s → E e s) : Triple P (throw e : EStateM ε σ α) Q E :=
  fun s hs => h s hs

theorem modify {f : σ → σ} {Q : PUnit → σ → Prop} (h : ∀ s, P s → Q ⟨⟩ (f s)) :
    Triple P (modify f : EStateM ε σ PUnit) Q E :=
  fun s hs => h s hs

theorem lift {x : Except ε α} (ho : ∀ a s, x = .ok a → P s → Q a s)
    (her : ∀ e s, x = .error e → P s → E e s) : Triple P (liftExcept x : EStateM ε σ α) Q E := by
  intro s hs
  cases x with
  | ok a => exact ho a s rfl hs
  | error e => exact her e s rfl hs

theorem bind {M : α → σ → Prop} {Q : β → σ → Prop} (hx : Triple P x M E)
    (hf : ∀ a, Triple (M a) (f a) Q E) : Triple P (x >>= f) Q E := by
  intro s hs
  have h := hx s hs
  change match EStateM.bind x f s with
    | .ok b s' => Q b s'
    | .error e s' => E e s'
  unfold EStateM.bind
  unfold EStateM.run at h
  cases hr : x s with
  | ok a s' =>
    rw [hr] at h
    exact hf a s' h
  | error e s' =>
    rw [hr] at h
    exact h

/-- Reading the state fixes it for the rest of the computation. -/
theorem get_bind {f : σ → EStateM ε σ β} {Q : β → σ → Prop}
    (h : ∀ s, P s → Triple (fun s' => s' = s) (f s) Q E) : Triple P (get >>= f) Q E :=
  fun s hs => h s hs s rfl

/-- The same, for a computation that does not need to know that it still has that state. -/
theorem get_bind_keep {f : σ → EStateM ε σ β} {Q : β → σ → Prop}
    (h : ∀ s, P s → Triple P (f s) Q E) : Triple P (get >>= f) Q E :=
  fun s hs => h s hs s hs

theorem modify_bind {g : σ → σ} {f : PUnit → EStateM ε σ β} {M : σ → Prop} {Q : β → σ → Prop}
    (hg : ∀ s, P s → M (g s)) (hf : Triple M (f ⟨⟩) Q E) :
    Triple P (EStateM.modifyGet (fun s => (⟨⟩, g s)) >>= f) Q E :=
  fun s hs => hf (g s) (hg s hs)

theorem lift_bind {x : Except ε α} {Q : β → σ → Prop} (ho : ∀ a, x = .ok a → Triple P (f a) Q E)
    (her : ∀ e s, x = .error e → P s → E e s) : Triple P (liftExcept x >>= f) Q E := by
  cases x with
  | ok a => exact fun s hs => ho a rfl s hs
  | error e => exact fun s hs => her e s rfl hs

theorem conseq {Q' : α → σ → Prop} (h : Triple P x Q E) (hP : ∀ s, P' s → P s)
    (hQ : ∀ a s, Q a s → Q' a s) (hE : ∀ e s, E e s → E' e s) : Triple P' x Q' E' := by
  intro s hs
  have hx := h s (hP s hs)
  cases hr : x.run s with
  | ok a s' =>
    rw [hr] at hx
    exact hQ a s' hx
  | error e s' =>
    rw [hr] at hx
    exact hE e s' hx

theorem pre (h : Triple P x Q E) (hP : ∀ s, P' s → P s) : Triple P' x Q E :=
  h.conseq hP (fun _ _ h => h) (fun _ _ h => h)

theorem post {Q' : α → σ → Prop} (h : Triple P x Q E) (hQ : ∀ a s, Q a s → Q' a s) :
    Triple P x Q' E :=
  h.conseq (fun _ h => h) hQ (fun _ _ h => h)

theorem and {Q' : α → σ → Prop} (h : Triple P x Q E) (h' : Triple P' x Q' E') :
    Triple (fun s => P s ∧ P' s) x (fun a s => Q a s ∧ Q' a s) (fun e s => E e s ∧ E' e s) := by
  rintro s ⟨hs, hs'⟩
  have hx := h s hs
  have hx' := h' s hs'
  cases hr : x.run s with
  | ok | error =>
    rw [hr] at hx hx'
    exact ⟨hx, hx'⟩

theorem bind_at {M : α → σ → Prop} {Q : β → σ → Prop} (hx : Triple P x M E)
    (hf : ∀ a s, M a s → Triple (fun s' => s' = s) (f a) Q E) : Triple P (x >>= f) Q E :=
  bind hx (fun a s hs => hf a s hs s rfl)

/-- The postcondition may name the run from a known state. -/
theorem of_run {s : σ} (h : Triple (fun s' => s' = s) x Q E) :
    Triple (fun s' => s' = s) x (fun a s' => x.run s = .ok a s' ∧ Q a s') E := by
  rintro s rfl
  have hx := h s rfl
  cases hr : x.run s with
  | ok a s' =>
    rw [hr] at hx
    exact ⟨rfl, hx⟩
  | error e s' =>
    rw [hr] at hx
    exact hx

theorem of_forall (hQ : ∀ a s, Q a s) (hE : ∀ e s, E e s) : Triple P x Q E := by
  intro s _
  cases x.run s with
  | ok a s' => exact hQ a s'
  | error e s' => exact hE e s'

/-- What a triple says of a run that returns. -/
theorem run_ok {s s' : σ} {a : α} (h : Triple P x Q E) (hs : P s) (hr : x.run s = .ok a s') :
    Q a s' := by
  have hx := h s hs
  rwa [hr] at hx

theorem run_error {s : σ} (h : Triple P x (fun _ _ => False) E) (hs : P s) :
    ∃ e s', x.run s = .error e s' ∧ E e s' := by
  have hx := h s hs
  cases hr : x.run s with
  | ok a s' =>
    rw [hr] at hx
    exact hx.elim
  | error e s' =>
    rw [hr] at hx
    exact ⟨e, s', rfl, hx⟩

theorem ite {c : Prop} [Decidable c] {y : EStateM ε σ α} (hx : c → Triple P x Q E)
    (hy : ¬ c → Triple P y Q E) : Triple P (if c then x else y) Q E := by
  by_cases h : c
  · rw [if_pos h]
    exact hx h
  · rw [if_neg h]
    exact hy h

end Triple

/-- Started in `I`, the computation ends in `I`, whether or not it fails. -/
abbrev Keeps (I : σ → Prop) (x : EStateM ε σ α) : Prop := Triple I x (fun _ => I) (fun _ => I)

namespace Keeps

variable {I : σ → Prop}

theorem pure (a : α) : Keeps I (pure a : EStateM ε σ α) := Triple.pure (fun _ h => h)

theorem throw (e : ε) : Keeps I (throw e : EStateM ε σ α) := Triple.throw (fun _ h => h)

theorem lift_bind {x : Except ε α} (h : ∀ a, Keeps I (f a)) : Keeps I (liftExcept x >>= f) :=
  Triple.lift_bind (fun a _ => h a) (fun _ _ _ h => h)

end Keeps

lemma run_bind_eq_ok {s s' : σ} {r : β} (h : (x >>= f).run s = .ok r s') :
    ∃ a t, x.run s = .ok a t ∧ (f a).run t = .ok r s' := by
  change EStateM.bind x f s = _ at h
  unfold EStateM.bind at h
  cases hx : x s with
  | ok a t =>
    rw [hx] at h
    exact ⟨a, t, hx, h⟩
  | error e t =>
    rw [hx] at h
    cases h

/-- Whether a run on a fixed state returns with the property. -/
def checkRun (x : EStateM ε σ α) (s : σ) (p : α → σ → Bool) : Bool :=
  match x.run s with
  | .ok a s' => p a s'
  | .error _ _ => false

lemma exists_run_of_check {s : σ} {p : α → σ → Bool} (h : checkRun x s p = true) :
    ∃ a s', x.run s = .ok a s' ∧ p a s' = true := by
  unfold checkRun at h
  cases hr : x.run s with
  | ok a s' =>
    rw [hr] at h
    exact ⟨a, s', rfl, h⟩
  | error e s' => simp [hr] at h

end Moon.Lib
