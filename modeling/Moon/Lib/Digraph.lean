import Mathlib.Data.Set.Finite.Basic
import Mathlib.Order.WellFounded

/-!
# Acyclic relations
-/

namespace Moon.Lib

variable {α : Type} {r : α → α → Prop}

/-- No element reaches itself. -/
def Acyclic (r : α → α → Prop) : Prop := ∀ a, ¬ Relation.TransGen r a a

theorem Acyclic.mono {r' : α → α → Prop} (h : Acyclic r) (hs : ∀ a b, r' a b → r a b) :
    Acyclic r' :=
  fun a ha => h a (Relation.TransGen.mono hs a a ha)

theorem acyclic_of_rank (rank : α → Nat) (h : ∀ a b, r a b → rank b < rank a) : Acyclic r := by
  have hl (a b : α) (hab : Relation.TransGen r a b) : rank b < rank a := by
    induction hab with
    | single hr => exact h _ _ hr
    | tail _ hr ih => exact (h _ _ hr).trans ih
  exact fun a ha => (hl a a ha).false

/-- A finite set has an element without successors in the set. -/
theorem Acyclic.exists_sink (h : Acyclic r) (s : Finset α)
    (hs : s.Nonempty) : ∃ a ∈ s, ∀ b ∈ s, ¬ r a b := by
  let below (x y : {a // a ∈ s}) : Prop := Relation.TransGen r y.1 x.1
  have htrn : IsTrans {a // a ∈ s} below := ⟨fun _ _ _ hx hy => hy.trans hx⟩
  have hirf : Std.Irrefl below := ⟨fun x => h x.1⟩
  have hw : WellFounded below := Finite.wellFounded_of_trans_of_irrefl below
  obtain ⟨a, ha⟩ := hs
  obtain ⟨m, -, hm⟩ := hw.has_min Set.univ ⟨⟨a, ha⟩, trivial⟩
  refine ⟨m.1, m.2, ?_⟩
  intro b hb hr
  exact hm ⟨b, hb⟩ trivial (Relation.TransGen.single hr)

/-! ### How deep a recursion gets

A recursion that never enters an element twice gets as deep as there are elements, and one
that follows an acyclic relation as deep as there are elements to reach. -/

section Unvisited

open Finset

variable [DecidableEq α] {elements visited : List α}

def unvisited (elements visited : List α) : Nat := (elements.toFinset \ visited.toFinset).card

theorem unvisited_le_length (elements visited : List α) :
    unvisited elements visited ≤ elements.length :=
  (card_le_card sdiff_subset).trans (List.toFinset_card_le elements)

theorem unvisited_le_of_subset {visited' : List α} (h : visited ⊆ visited') :
    unvisited elements visited' ≤ unvisited elements visited := by
  apply card_le_card
  exact sdiff_subset_sdiff (Subset.refl _) (Multiset.toFinset_subset.mpr h)

theorem unvisited_lt_of_subset {visited' : List α} {a : α}
    (h : visited ⊆ visited') (ha : a ∈ elements) (hn : a ∉ visited) (hv : a ∈ visited') :
    unvisited elements visited' < unvisited elements visited := by
  apply card_lt_card
  rw [ssubset_iff_of_subset]
  · exact ⟨a, by simp [ha, hn], by simp [hv]⟩
  · exact sdiff_subset_sdiff (Subset.refl _) (Multiset.toFinset_subset.mpr h)

theorem unvisited_cons_lt {a : α} (ha : a ∈ elements)
    (hn : a ∉ visited) : unvisited elements (a :: visited) < unvisited elements visited :=
  unvisited_lt_of_subset (List.subset_cons_self a visited) ha hn List.mem_cons_self

theorem unvisited_append {new : List α} (hd : new.Nodup)
    (hn : ∀ a ∈ new, a ∈ elements ∧ a ∉ visited) :
    unvisited elements (new.reverse ++ visited) + new.length = unvisited elements visited := by
  have hs : new.toFinset ⊆ elements.toFinset \ visited.toFinset := by
    intro a ha
    simpa using hn a (List.mem_toFinset.mp ha)
  rw [unvisited, unvisited, List.toFinset_append, List.toFinset_reverse, union_comm,
    ← sup_eq_union, ← sdiff_sdiff_left, ← List.toFinset_card_of_nodup hd,
    card_sdiff_add_card_eq_card hs]

end Unvisited

section Height

open Finset

variable {s : Finset α} {a b : α}

open Classical in
/-- How many elements of a finite set can be reached. -/
noncomputable def height (r : α → α → Prop) (s : Finset α) (a : α) : Nat :=
  (s.filter (Relation.TransGen r a)).card

theorem height_le_card (r : α → α → Prop) (s : Finset α) (a : α) : height r s a ≤ s.card := by
  classical
  exact card_filter_le s _

theorem Acyclic.height_lt (h : Acyclic r) (ha : r a b) (hb : b ∈ s) :
    height r s b < height r s a := by
  classical
  unfold height
  apply card_lt_card
  rw [ssubset_iff_of_subset]
  · exact ⟨b, by simp [hb, Relation.TransGen.single ha], by simp [h b]⟩
  · intro c hc
    simp only [mem_filter] at hc ⊢
    exact ⟨hc.1, .head ha hc.2⟩

theorem Acyclic.swap (h : Acyclic r) : Acyclic (Function.swap r) := by
  intro a ha
  rw [Relation.transGen_swap] at ha
  exact h a ha

/-- Where only finitely many elements follow, a way is endless only through a cycle. -/
theorem acc_iff_no_cycle (s : Finset α) (hs : ∀ a b, r a b → b ∈ s) :
    Acc (Function.swap r) a ↔ ∀ b, Relation.ReflTransGen r a b → ¬ Relation.TransGen r b b := by
  constructor
  · intro h b hab
    have hb : Acc (Function.swap r) b := by
      induction hab with
      | refl => exact h
      | tail _ hbc ih => exact ih.inv hbc
    induction hb with
    | intro b _ ih =>
      intro hc
      obtain ⟨c, hbc, hcb⟩ := Relation.TransGen.head'_iff.mp hc
      exact ih c hbc (hab.tail hbc) (.tail' hcb hbc)
  · intro h
    let below (x y : α) : Prop := Relation.ReflTransGen r a x ∧ r x y
    have hac : Acyclic below := by
      intro x hx
      obtain ⟨y, hxy, -⟩ := Relation.TransGen.head'_iff.mp hx
      exact h x hxy.1 (Relation.TransGen.mono (fun _ _ h => h.2) x x hx)
    have hall (x : α) : Relation.ReflTransGen r a x → Acc (Function.swap r) x := by
      induction x using (measure (height below s)).wf.induction with
      | _ x ih =>
        exact fun hx => Acc.intro x (fun y hy =>
          ih y (hac.height_lt ⟨hx, hy⟩ (hs x y hy)) (hx.tail hy))
    exact hall a .refl

end Height

/-! ### Acyclic graphs as lists of edges

Reachability is computed by recursion over the edges: a path either avoids the first edge,
or goes to its source and on from its target without it. -/

theorem reflTransGen_insert_edge {a b x y : α} :
    Relation.ReflTransGen (fun c d => r c d ∨ (c = x ∧ d = y)) a b ↔ Relation.ReflTransGen r a b ∨
        (Relation.ReflTransGen r a x ∧ Relation.ReflTransGen r y b) := by
  constructor
  · intro h
    induction h using Relation.ReflTransGen.head_induction_on with
    | refl => exact Or.inl .refl
    | head hs _ ih =>
      rcases hs with hr | ⟨rfl, rfl⟩
      · exact ih.imp (fun h => .head hr h) (fun h => ⟨.head hr h.1, h.2⟩)
      · exact Or.inr ⟨.refl, ih.elim id And.right⟩
  · have hm {c d : α} (h : Relation.ReflTransGen r c d) :
        Relation.ReflTransGen (fun c d => r c d ∨ (c = x ∧ d = y)) c d :=
      Relation.ReflTransGen.mono (fun _ _ hr => Or.inl hr) c d h
    rintro (h | ⟨ha, hy⟩)
    · exact hm h
    · exact (hm ha).trans (.head (Or.inr ⟨rfl, rfl⟩) (hm hy))

/-- A relation stays acyclic with an edge whose target does not reach its source. -/
theorem Acyclic.insert_edge (h : Acyclic r) {x y : α} (hbc : ¬ Relation.ReflTransGen r y x) :
    Acyclic (fun c d => r c d ∨ (c = x ∧ d = y)) := by
  intro a ha
  obtain ⟨b, hab, hb⟩ := Relation.TransGen.head'_iff.mp ha
  rw [reflTransGen_insert_edge] at hb
  rcases hab with hr | ⟨rfl, rfl⟩
  · rcases hb with hb | ⟨hbx, hy⟩
    · exact h a (Relation.TransGen.head'_iff.mpr ⟨b, hr, hb⟩)
    · exact hbc (hy.trans (.head hr hbx))
  · rcases hb with hb | ⟨hb, -⟩
    · exact hbc hb
    · exact hbc hb

def EdgeRel (edges : List (α × α)) (a b : α) : Prop := (a, b) ∈ edges

theorem edgeRel_append_singleton (edges : List (α × α)) (x y : α) :
    EdgeRel (edges ++ [(x, y)]) = fun a b => EdgeRel edges a b ∨ (a = x ∧ b = y) := by
  funext a b
  simp [EdgeRel]

variable [DecidableEq α]

def reaches : List (α × α) → α → α → Bool
  | [], a, b => decide (a = b)
  | (x, y) :: edges, a, b => reaches edges a b || (reaches edges a x && reaches edges y b)

theorem reaches_iff (edges : List (α × α)) (a b : α) :
    reaches edges a b = true ↔ Relation.ReflTransGen (EdgeRel edges) a b := by
  induction edges generalizing a b with
  | nil =>
    rw [reaches, decide_eq_true_iff]
    constructor
    · rintro rfl
      exact .refl
    · intro h
      rcases h.cases_head with rfl | ⟨c, hc, -⟩
      · rfl
      · cases hc
  | cons edge edges ih =>
    obtain ⟨x, y⟩ := edge
    have hr : EdgeRel ((x, y) :: edges) = fun c d => EdgeRel edges c d ∨ (c = x ∧ d = y) := by
      funext c d
      simp [EdgeRel, or_comm]
    rw [hr, reflTransGen_insert_edge, reaches, Bool.or_eq_true, Bool.and_eq_true, ih, ih, ih]

end Moon.Lib
