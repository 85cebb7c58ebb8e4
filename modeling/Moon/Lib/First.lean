import Mathlib.Data.List.Nodup

/-!
# The first that is found

An element is found by a key that no other one has.
-/

namespace Moon.Lib

open List

variable {α β : Type} {p : α → Bool} {l : List α}

theorem find?_eq_some_of_key {key : α → β} (hky : (l.map key).Nodup) {a : α} (ha : a ∈ l)
    (hp : ∀ b, p b = true ↔ key b = key a) : l.find? p = some a := by
  cases hf : l.find? p with
  | none => exact absurd ((hp a).mpr rfl) (find?_eq_none.mp hf a ha)
  | some b =>
    have hk : key b = key a := (hp b).mp (find?_some hf)
    rw [inj_on_of_nodup_map hky (mem_of_find?_eq_some hf) ha hk]

end Moon.Lib
