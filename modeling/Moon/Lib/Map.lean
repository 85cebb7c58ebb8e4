import Mathlib.Data.Finmap

/-!
# Finite maps written in order

`Finmap` with the two ways a program writes it one entry at a time: `insert`, where the
last write of a key wins, and `insertNew`, where the first one does.
-/

namespace Moon.Lib

open List

abbrev Map (α β : Type) := Finmap (fun _ : α => β)

namespace Map

variable {α β γ : Type} [DecidableEq α]

/-- An insertion that leaves an existing entry unchanged. -/
def insertNew (m : Map α β) (a : α) (b : β) : Map α β := if a ∈ m then m else m.insert a b

/-- Writes the entries of a list from left to right, skipping those without a value. -/
def write (key : γ → α) (value : γ → Option β) (m : Map α β) (l : List γ) : Map α β :=
  l.foldl (fun acc x =>
    match value x with
    | some b => acc.insert (key x) b
    | none => acc) m

lemma lookup_insert_eq (m : Map α β) (a c : α) (b : β) :
    (m.insert a b).lookup c = if c = a then some b else m.lookup c := by
  by_cases h : c = a
  · subst h
    simp
  · rw [Finmap.lookup_insert_of_ne _ h, if_neg h]

lemma lookup_insertNew (m : Map α β) (a c : α) (b : β) :
    (m.insertNew a b).lookup c = if c = a then some ((m.lookup a).getD b) else m.lookup c := by
  unfold insertNew
  by_cases ha : a ∈ m
  · rw [if_pos ha]
    obtain ⟨v, hv⟩ := Finmap.mem_iff.mp ha
    by_cases h : c = a
    · subst h
      simp [hv]
    · rw [if_neg h]
  · rw [if_neg ha, lookup_insert_eq, Finmap.lookup_eq_none.mpr ha]
    rfl

/-- After a run of writes, a key holds its last written value. -/
lemma lookup_write (key : γ → α) (value : γ → Option β) (m : Map α β) (l : List γ) (a : α) :
    (write key value m l).lookup a =
      (((l.filter (fun x => key x = a)).filterMap value).getLast?.or (m.lookup a)) := by
  induction l generalizing m with
  | nil => rfl
  | cons x l ih =>
    have hs : write key value m (x :: l) =
        write key value (match value x with
          | some b => m.insert (key x) b
          | none => m) l := rfl
    rw [hs, ih]
    by_cases hx : key x = a
    · rw [filter_cons_of_pos (by simpa using hx)]
      cases hv : value x with
      | none => simp [hv]
      | some b =>
        rw [filterMap_cons_some hv, getLast?_cons, lookup_insert_eq, if_pos hx.symm]
        cases ((l.filter (fun x => key x = a)).filterMap value).getLast? <;> rfl
    · rw [filter_cons_of_neg (by simpa using hx)]
      cases hv : value x with
      | none => rfl
      | some b => rw [lookup_insert_eq, if_neg (fun h => hx h.symm)]

/-- Where one key is never written with two values, the map has exactly what was written. -/
lemma lookup_foldl_insert {key : γ → α} {value : γ → β} {l : List γ}
    (h : ∀ x ∈ l, ∀ y ∈ l, key x = key y → value x = value y) {a : α} {b : β} :
    (l.foldl (fun m x => m.insert (key x) (value x)) (∅ : Map α β)).lookup a = some b ↔
      ∃ x ∈ l, key x = a ∧ value x = b := by
  induction l using List.reverseRecOn with
  | nil => simp
  | append_singleton l x ih =>
    rw [foldl_append, foldl_cons, foldl_nil, lookup_insert_eq]
    have hr := ih (fun y hy z hz => h y (mem_append_left _ hy) z (mem_append_left _ hz))
    by_cases ha : a = key x
    · subst ha
      simp only [if_true, Option.some.injEq]
      constructor
      · exact fun hb => ⟨x, mem_append_right _ mem_cons_self, rfl, hb⟩
      · rintro ⟨y, hy, hk, rfl⟩
        exact h x (mem_append_right _ mem_cons_self) y hy hk.symm
    · rw [if_neg ha, hr]
      simp only [mem_append, mem_singleton, or_and_right, exists_or]
      exact (or_iff_left (fun ⟨_, hx, hk, _⟩ => ha (hx ▸ hk).symm)).symm

variable (f : Option β → β → β)

/-- Writes each entry, combined with what its key holds. -/
def mergeEntries (m : Map α β) (entries : List (Sigma (fun _ : α => β))) : Map α β :=
  entries.foldl (fun acc entry => acc.insert entry.1 (f (acc.lookup entry.1) entry.2)) m

lemma lookup_mergeEntries (m : Map α β) {entries : List (Sigma (fun _ : α => β))}
    (h : entries.NodupKeys) (a : α) :
    (mergeEntries f m entries).lookup a =
      (entries.dlookup a).elim (m.lookup a) (fun b => some (f (m.lookup a) b)) := by
  induction entries generalizing m with
  | nil => rfl
  | cons entry entries ih =>
    obtain ⟨hf, hr⟩ := nodupKeys_cons.mp h
    have hs : mergeEntries f m (entry :: entries) =
        mergeEntries f (m.insert entry.1 (f (m.lookup entry.1) entry.2)) entries := rfl
    rw [hs, ih _ hr, lookup_insert_eq]
    by_cases ha : a = entry.1
    · subst ha
      rw [dlookup_eq_none.mpr hf, if_pos rfl, dlookup_cons_eq]
      rfl
    · rw [if_neg ha, dlookup_cons_ne _ _ ha]

/-- Writes the entries of another map, in whatever order they come. -/
def merge (m other : Map α β) : Map α β :=
  other.liftOn (fun entries => mergeEntries f m entries.entries) (fun left right hperm => by
    apply Finmap.ext_lookup
    intro a
    rw [lookup_mergeEntries f m left.nodupKeys, lookup_mergeEntries f m right.nodupKeys,
      perm_dlookup a left.nodupKeys hperm])

lemma lookup_merge (m other : Map α β) (a : α) :
    (merge f m other).lookup a =
      (other.lookup a).elim (m.lookup a) (fun b => some (f (m.lookup a) b)) := by
  induction other using Finmap.induction_on with
  | _ entries => exact lookup_mergeEntries f m entries.nodupKeys a

end Map

end Moon.Lib
