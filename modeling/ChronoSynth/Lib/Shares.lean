import Mathlib.Algebra.BigOperators.Ring.List
import Mathlib.Algebra.Order.BigOperators.Group.List
import Mathlib.Algebra.Order.Field.Basic

/-!
# Proportional shares

A unit is divided among the members of a list in proportion to their weights (`proportional`). Where no weight is
negative and some weight is positive, the shares lie in the unit interval and add up to one, and more weight is never
less share.
-/

namespace ChronoSynth

variable {α K : Type*} [Field K] {weights : List (α × K)} {a b : α × K}

def total (weights : List (α × K)) : K := (weights.map Prod.snd).sum

/-- Each member with its share of the whole. -/
def proportional (weights : List (α × K)) : List (α × K) := weights.map fun a => (a.1, a.2 / total weights)

@[simp] theorem map_fst_proportional : (proportional weights).map Prod.fst = weights.map Prod.fst := by
  simp [proportional, Function.comp_def]

/-- The shares add up to the whole. -/
theorem total_proportional (h : total weights ≠ 0) : total (proportional weights) = 1 := by
  have hsum : total (proportional weights) = (weights.map fun a => a.2 * (total weights)⁻¹).sum := by
    simp [total, proportional, Function.comp_def, div_eq_mul_inv]
  rw [hsum, List.sum_map_mul_right]
  exact mul_inv_cancel₀ h

variable [LinearOrder K] [IsStrictOrderedRing K]

theorem total_nonneg (hw : ∀ a ∈ weights, 0 ≤ a.2) : 0 ≤ total weights := by
  refine List.sum_nonneg fun w hmem => ?_
  obtain ⟨a, ha, rfl⟩ := List.mem_map.1 hmem
  exact hw a ha

theorem share_le_total (hw : ∀ a ∈ weights, 0 ≤ a.2) (ha : a ∈ weights) : a.2 ≤ total weights := by
  refine List.single_le_sum (fun w hmem => ?_) _ (List.mem_map_of_mem ha)
  obtain ⟨b, hb, rfl⟩ := List.mem_map.1 hmem
  exact hw b hb

theorem total_eq_zero (hw : ∀ a ∈ weights, 0 ≤ a.2) (h : total weights = 0) (ha : a ∈ weights) : a.2 = 0 :=
  le_antisymm (h ▸ share_le_total hw ha) (hw a ha)

theorem share_mem_unit (hw : ∀ a ∈ weights, 0 ≤ a.2) (ha : a ∈ proportional weights) : 0 ≤ a.2 ∧ a.2 ≤ 1 := by
  obtain ⟨b, hb, rfl⟩ := List.mem_map.1 ha
  exact ⟨div_nonneg (hw b hb) (total_nonneg hw), div_le_one_of_le₀ (share_le_total hw hb) (total_nonneg hw)⟩

theorem share_mono (hw : ∀ a ∈ weights, 0 ≤ a.2) (h : a.2 ≤ b.2) : a.2 / total weights ≤ b.2 / total weights :=
  div_le_div_of_nonneg_right h (total_nonneg hw)

end ChronoSynth
