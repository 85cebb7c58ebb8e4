import Mathlib.Data.List.Forall2

/-!
# Inversion of stateful computations and of those that may fail
-/

namespace Moon.Lib

open List

variable {ε α β : Type}

section State

variable {σ : Type}

theorem run_bind {x : StateM σ α} {f : α → StateM σ β} {s s' : σ} {b : β}
    (h : (x >>= f).run s = (b, s')) : ∃ a t, x.run s = (a, t) ∧ (f a).run t = (b, s') :=
  ⟨(x.run s).1, (x.run s).2, rfl, h⟩

theorem run_bind_of {x : StateM σ α} (f : α → StateM σ β) {s t : σ} {a : α}
    (h : x.run s = (a, t)) : (x >>= f).run s = (f a).run t := by
  change (f (x.run s).1).run (x.run s).2 = (f a).run t
  rw [h]

theorem run_pure {a b : α} {s s' : σ} (h : (pure a : StateM σ α).run s = (b, s')) :
    a = b ∧ s = s' :=
  Prod.mk.inj h

theorem run_get_bind {f : σ → StateM σ β} {s s' : σ} {b : β}
    (h : (get >>= f).run s = (b, s')) : (f s).run s = (b, s') :=
  h

end State

variable {f : α → Except ε β} {x : Except ε α} {b : β}

theorem bind_eq_ok (h : (x >>= f) = .ok b) : ∃ a, x = .ok a ∧ f a = .ok b := by
  cases x with
  | error e => cases h
  | ok a => exact ⟨a, rfl, h⟩

theorem bind_eq_error {e : ε} (h : (x >>= f) = .error e) :
    x = .error e ∨ ∃ a, x = .ok a ∧ f a = .error e := by
  cases x with
  | error e' =>
    cases h
    exact .inl rfl
  | ok a => exact .inr ⟨a, rfl, h⟩

theorem toOption_eq_some {a : α} (h : x.toOption = some a) : x = .ok a := by
  cases x with
  | error e => cases h
  | ok b =>
    cases h
    rfl

variable {l : List α}

theorem forM_eq_ok {f : α → Except ε Unit} : l.forM f = .ok () ↔ ∀ a ∈ l, f a = .ok () := by
  induction l with
  | nil => exact ⟨fun _ a ha => (by cases ha), fun _ => rfl⟩
  | cons x l ih =>
    constructor
    · intro h
      obtain ⟨_, hx, hl⟩ : ∃ u, f x = .ok u ∧ l.forM f = .ok () := bind_eq_ok h
      intro a ha
      rcases mem_cons.mp ha with rfl | hr
      · exact hx
      · exact ih.mp hl a hr
    · intro h
      have hx : f x = .ok () := h x mem_cons_self
      have hl : l.forM f = .ok () := ih.mpr (fun a ha => h a (mem_cons_of_mem _ ha))
      change (f x >>= fun _ => l.forM f) = .ok ()
      rw [hx]
      exact hl

/-- What every step that succeeds keeps holds at the end of the fold. -/
theorem foldlM_invariant_mem {P : β → Prop} {f : β → α → Except ε β}
    (hs : ∀ a ∈ l, ∀ b b', P b → f b a = .ok b' → P b') {b' : β} (hb : P b)
    (h : l.foldlM f b = .ok b') : P b' := by
  induction l generalizing b with
  | nil =>
    cases h
    exact hb
  | cons a l ih =>
    rw [foldlM_cons] at h
    obtain ⟨c, hc, hr⟩ := bind_eq_ok h
    have hl := fun a' ha' => hs a' (mem_cons_of_mem _ ha')
    exact ih hl (hs a mem_cons_self b c hb hc) hr

theorem foldlM_invariant {P : β → Prop} {f : β → α → Except ε β}
    (hs : ∀ b a b', P b → f b a = .ok b' → P b') {b' : β} (hb : P b) (h : l.foldlM f b = .ok b') :
    P b' :=
  foldlM_invariant_mem (fun a _ b b' => hs b a b') hb h

theorem mapM_eq_ok_map {g : α → β} (h : ∀ a ∈ l, f a = .ok (g a)) : l.mapM f = .ok (l.map g) := by
  induction l with
  | nil => rfl
  | cons x l ih =>
    have hx : f x = .ok (g x) := h x mem_cons_self
    have hl : l.mapM f = .ok (l.map g) := ih (fun a ha => h a (mem_cons_of_mem _ ha))
    rw [mapM_cons, hx, hl]
    rfl

theorem mem_of_mapM_eq_ok {r : List β} (h : l.mapM f = .ok r) (hb : b ∈ r) :
    ∃ a ∈ l, f a = .ok b := by
  induction l generalizing r with
  | nil =>
    rw [mapM_nil] at h
    cases h
    cases hb
  | cons x l ih =>
    rw [mapM_cons] at h
    obtain ⟨y, hy, h⟩ := bind_eq_ok h
    obtain ⟨ys, hys, h⟩ := bind_eq_ok h
    cases h
    rcases mem_cons.mp hb with rfl | hr
    · exact ⟨x, mem_cons_self, hy⟩
    · obtain ⟨a, ha, hf⟩ := ih hys hr
      exact ⟨a, mem_cons_of_mem _ ha, hf⟩

theorem exists_of_mapM_eq_error {e : ε} (h : l.mapM f = .error e) : ∃ a ∈ l, f a = .error e := by
  induction l with
  | nil => cases h
  | cons x l ih =>
    rw [mapM_cons] at h
    rcases bind_eq_error h with hx | ⟨y, -, hr⟩
    · exact ⟨x, mem_cons_self, hx⟩
    rcases bind_eq_error hr with hl | ⟨ys, -, hp⟩
    · obtain ⟨a, ha, hf⟩ := ih hl
      exact ⟨a, mem_cons_of_mem _ ha, hf⟩
    · cases hp

theorem mapM_eq_ok_mem {r : List β} (h : l.mapM f = .ok r) {a : α} (ha : a ∈ l) :
    ∃ b, f a = .ok b ∧ b ∈ r := by
  induction l generalizing r with
  | nil => cases ha
  | cons x l ih =>
    rw [mapM_cons] at h
    obtain ⟨y, hy, h⟩ := bind_eq_ok h
    obtain ⟨ys, hys, h⟩ := bind_eq_ok h
    cases h
    rcases mem_cons.mp ha with rfl | hr
    · exact ⟨y, hy, mem_cons_self⟩
    · obtain ⟨b, hb, hm⟩ := ih hys hr
      exact ⟨b, hb, mem_cons_of_mem _ hm⟩

end Moon.Lib
