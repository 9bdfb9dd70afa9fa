-- Tokens that lie in places: each place has a list of tokens, and a token counts as often
-- as it lies anywhere. A move takes a token out of one place and puts it into another.
import Mathlib

namespace places

variable {ι τ : Type} [Fintype ι] [DecidableEq τ]

/-- How often a token lies in the places. -/
def total (g : ι → List τ) (t : τ) : Nat := ∑ i, (g i).count t

theorem count_le_total (g : ι → List τ) (i : ι) (t : τ) : (g i).count t ≤ total g t :=
  Finset.single_le_sum (f := fun i => (g i).count t) (fun _ _ => Nat.zero_le _)
    (Finset.mem_univ i)

theorem total_pos {g : ι → List τ} {i : ι} {t : τ} (h : t ∈ g i) : 0 < total g t :=
  Nat.lt_of_lt_of_le (List.count_pos_iff.mpr h) (count_le_total g i t)

theorem exists_place {g : ι → List τ} {t : τ} (h : total g t ≠ 0) : ∃ i, t ∈ g i := by
  by_contra hno
  push Not at hno
  apply h
  exact Finset.sum_eq_zero fun i _ => List.count_eq_zero_of_not_mem (hno i)

/-- A place with another value: what is new counts, and what was there does not. -/
theorem sum_update [DecidableEq ι] {α : Type} (weight : α → Nat) (g : ι → α) (i : ι) (x : α) :
    ∑ j, weight (Function.update g i x j) + weight (g i) = ∑ j, weight (g j) + weight x := by
  have hsplit : ∀ g : ι → α,
      ∑ j, weight (g j) = weight (g i) + ∑ j ∈ Finset.univ.erase i, weight (g j) := by
    intro g
    exact (Finset.add_sum_erase _ _ (Finset.mem_univ i)).symm
  have hrest : ∑ j ∈ Finset.univ.erase i, weight (Function.update g i x j) =
      ∑ j ∈ Finset.univ.erase i, weight (g j) := by
    apply Finset.sum_congr rfl
    intro j hj
    rw [Function.update_of_ne (Finset.ne_of_mem_erase hj)]
  rw [hsplit, hsplit g, hrest, Function.update_self]
  omega

theorem total_update [DecidableEq ι] (g : ι → List τ) (i : ι) (l : List τ) (t : τ) :
    total (Function.update g i l) t + (g i).count t = total g t + l.count t :=
  sum_update (List.count t) g i l

/-- A token that counts once lies in one place. -/
theorem only_place {g : ι → List τ} {i j : ι} {t : τ} (h1 : total g t ≤ 1) (hi : t ∈ g i)
    (hij : i ≠ j) : t ∉ g j := by
  classical
  intro hj
  have h := total_update g i [] t
  have hi' := List.count_pos_iff.mpr hi
  have hj' := count_le_total (Function.update g i []) j t
  rw [Function.update_of_ne hij.symm] at hj'
  have := List.count_pos_iff.mpr hj
  simp only [List.count_nil] at h
  omega

end places
