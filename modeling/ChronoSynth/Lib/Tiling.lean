import Mathlib.Algebra.Order.Group.Int
import Mathlib.Data.List.Basic

/-!
# Intervals that tile the integers

A list of intervals of integers **tiles** from `k` on when the first begins at `k`, each later one
right behind its predecessor, and none is empty.

* `Tiling.Tiles lo hi k as` — the intervals from `lo a` to `hi a` tile from `k` on.
* `Tiling.next hi k as` — the number behind them, where one more has to begin.
-/

namespace ChronoSynth

namespace Tiling

variable {α : Type*} (lo hi : α → ℤ)

/-- The intervals tile from `k` on. -/
def Tiles : ℤ → List α → Prop
  | _, [] => True
  | k, a :: as => lo a = k ∧ k ≤ hi a ∧ Tiles (hi a + 1) as

/-- The number behind them. -/
def next (k : ℤ) (as : List α) : ℤ := (as.getLast?.map fun a => hi a + 1).getD k

variable {lo hi} {k : ℤ} {a : α} {as as' : List α}

@[simp] theorem tiles_nil : Tiles lo hi k [] := trivial

@[simp] theorem tiles_cons :
    Tiles lo hi k (a :: as) ↔ lo a = k ∧ k ≤ hi a ∧ Tiles lo hi (hi a + 1) as :=
  Iff.rfl

@[simp] theorem next_nil : next hi k [] = k := rfl

@[simp] theorem next_cons : next hi k (a :: as) = next hi (hi a + 1) as := by
  cases as with
  | nil => rfl
  | cons b as =>
    obtain ⟨c, hc⟩ := Option.ne_none_iff_exists'.1
      (List.getLast?_eq_none_iff.not.2 (List.cons_ne_nil b as))
    simp [next, List.getLast?_cons_cons, hc]

theorem tiles_append :
    Tiles lo hi k (as ++ as') ↔ Tiles lo hi k as ∧ Tiles lo hi (next hi k as) as' := by
  induction as generalizing k with
  | nil => simp
  | cons a as ih => simp only [List.cons_append, tiles_cons, next_cons, ih, and_assoc]

/-- One more interval tiles when it begins right behind the others and is not empty. -/
theorem tiles_snoc :
    Tiles lo hi k (as ++ [a]) ↔
      Tiles lo hi k as ∧ lo a = next hi k as ∧ next hi k as ≤ hi a := by
  rw [tiles_append, tiles_cons]
  simp

theorem Tiles.le_next (h : Tiles lo hi k as) : k ≤ next hi k as := by
  induction as generalizing k with
  | nil => exact le_rfl
  | cons a as ih =>
    obtain ⟨-, hk, htail⟩ := h
    have := ih htail
    rw [next_cons]
    omega

/-- Tiling intervals end between their beginning and the number behind them. -/
theorem Tiles.bounds (h : Tiles lo hi k as) (ha : a ∈ as) : k ≤ hi a ∧ hi a < next hi k as := by
  induction as generalizing k with
  | nil => simp at ha
  | cons b as ih =>
    obtain ⟨-, hk, htail⟩ := h
    rw [next_cons]
    rcases List.mem_cons.1 ha with rfl | ha
    · have := htail.le_next
      exact ⟨hk, by omega⟩
    · obtain ⟨hlo, hhi⟩ := ih htail ha
      exact ⟨by omega, hhi⟩

theorem Tiles.pairwise (h : Tiles lo hi k as) : as.Pairwise fun a b => hi a < hi b := by
  induction as generalizing k with
  | nil => exact List.Pairwise.nil
  | cons a as ih =>
    obtain ⟨-, -, htail⟩ := h
    refine List.pairwise_cons.2 ⟨fun b hb => ?_, ih htail⟩
    have := (htail.bounds hb).1
    omega

end Tiling

end ChronoSynth
