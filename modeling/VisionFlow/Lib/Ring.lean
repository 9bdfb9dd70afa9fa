-- A ring of cells, read around from a head: a list of the next cells. A write
-- behind the last cell appends to the list, and a step of the head drops its
-- first value.
import Mathlib

namespace ring

variable {β : Type}

/-- The values of `n` cells of a ring of `cap` cells, from `head` on. -/
def around (cell : Nat → β) (head cap n : Nat) : List β :=
  (List.range n).map fun k => cell ((head + k) % cap)

/-- Cell `i` is one of the `n` cells from `head` on. -/
def Occupied (head cap n i : Nat) : Prop := ∃ k < n, i = (head + k) % cap

@[simp]
theorem around_length (cell : Nat → β) (head cap n : Nat) :
    (around cell head cap n).length = n := by
  simp [around]

/-- Two steps of less than one round that end at one cell are the same step. -/
theorem step_unique {head cap i j : Nat} (hi : i < cap) (hj : j < cap)
    (h : (head + i) % cap = (head + j) % cap) : i = j :=
  Nat.ModEq.eq_of_lt_of_lt (Nat.ModEq.add_left_cancel' head h) hi hj

/-- A step from the cell after the head is one step more from the head. -/
theorem step_from_next (head cap k : Nat) :
    ((head + 1) % cap + k) % cap = (head + (k + 1)) % cap := by
  rw [Nat.mod_add_mod]
  congr 1
  omega

theorem around_congr {cell cell' : Nat → β} {head cap n : Nat}
    (h : ∀ k < n, cell ((head + k) % cap) = cell' ((head + k) % cap)) :
    around cell head cap n = around cell' head cap n := by
  apply List.map_congr_left
  intro k hk
  exact h k (List.mem_range.mp hk)

/-- A write behind the last cell appends the value. -/
theorem around_push (cell : Nat → β) (v : β) {head cap n : Nat} (h : n < cap) :
    around (Function.update cell ((head + n) % cap) v) head cap (n + 1) =
      around cell head cap n ++ [v] := by
  have hkeep : around (Function.update cell ((head + n) % cap) v) head cap n =
      around cell head cap n := by
    apply around_congr
    intro k hk
    apply Function.update_of_ne
    intro he
    exact absurd (step_unique (by omega) h he) (by omega)
  rw [← hkeep]
  simp [around, List.range_succ]

/-- The first value stands at the head. The rest is read from the next cell on, and
does not change when the cell of the head is written. -/
theorem around_pop (cell : Nat → β) (v : β) {head cap n : Nat} (hh : head < cap)
    (h : n + 1 ≤ cap) :
    around cell head cap (n + 1) =
      cell head :: around (Function.update cell head v) ((head + 1) % cap) cap n := by
  unfold around
  rw [List.range_succ_eq_map, List.map_cons, List.map_map, Nat.add_zero, Nat.mod_eq_of_lt hh]
  congr 1
  apply List.map_congr_left
  intro k hk
  have hk := List.mem_range.mp hk
  simp only [Function.comp_apply, step_from_next]
  symm
  apply Function.update_of_ne
  intro he
  have h0 : (head + (k + 1)) % cap = (head + 0) % cap := by
    rw [he, Nat.add_zero, Nat.mod_eq_of_lt hh]
  exact absurd (step_unique (by omega) (by omega) h0) (by omega)

theorem occupied_push {head cap n i : Nat} :
    Occupied head cap (n + 1) i ↔ Occupied head cap n i ∨ i = (head + n) % cap := by
  constructor
  · rintro ⟨k, hk, he⟩
    by_cases hkn : k = n
    · subst hkn
      exact Or.inr he
    · exact Or.inl ⟨k, by omega, he⟩
  · rintro (⟨k, hk, he⟩ | he)
    · exact ⟨k, by omega, he⟩
    · exact ⟨n, by omega, he⟩

theorem occupied_pop {head cap n i : Nat} (hh : head < cap) :
    Occupied head cap (n + 1) i ↔ i = head ∨ Occupied ((head + 1) % cap) cap n i := by
  constructor
  · rintro ⟨k, hk, he⟩
    cases k with
    | zero =>
      left
      rw [he, Nat.add_zero, Nat.mod_eq_of_lt hh]
    | succ k => exact Or.inr ⟨k, by omega, by rw [step_from_next, he]⟩
  · rintro (he | ⟨k, hk, he⟩)
    · exact ⟨0, by omega, by rw [he, Nat.add_zero, Nat.mod_eq_of_lt hh]⟩
    · exact ⟨k + 1, by omega, by rw [he, step_from_next]⟩

end ring
