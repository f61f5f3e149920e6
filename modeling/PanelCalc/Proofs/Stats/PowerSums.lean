import Mathlib.Algebra.BigOperators.Fin
import Mathlib.Algebra.Order.BigOperators.Ring.Finset
import Mathlib.Analysis.Real.Sqrt
import Mathlib.Data.Nat.Choose.Sum
import Mathlib.Tactic.FieldSimp
import Mathlib.Tactic.LinearCombination
import Mathlib.Tactic.Ring

/-! # Deviations and power sums

What statistics are defined by: how far observations lie from their average. The
sums of the powers of these deviations follow from the sums of the powers of the
observations, and deviations in two windows are correlated by at most one. -/
namespace PanelCalc.Stats

variable {xs ys : List ℝ} {pairs : List (ℝ × ℝ)}

/-- The sum of powers of the observations. -/
def powerSum (k : ℕ) (xs : List ℝ) : ℝ := (xs.map (· ^ k)).sum

/-- The average of the observations. -/
noncomputable def average (xs : List ℝ) : ℝ := xs.sum / xs.length

/-- The sum of powers of the deviations from the average. -/
noncomputable def deviations (k : ℕ) (xs : List ℝ) : ℝ := (xs.map fun x => (x - average xs) ^ k).sum

/-- The sum of the products of the deviations in two windows. -/
noncomputable def codeviations (xs ys : List ℝ) : ℝ :=
  ((xs.zip ys).map fun (x, y) => (x - average xs) * (y - average ys)).sum

theorem powerSum_zero (xs : List ℝ) : powerSum 0 xs = xs.length := by
  simp [powerSum]

theorem powerSum_one (xs : List ℝ) : powerSum 1 xs = xs.sum := by
  simp [powerSum]

/-- **Powers of differences** add up to what the power sums say, with binomial coefficients. -/
theorem sum_sub_pow (c : ℝ) (k : ℕ) (xs : List ℝ) : (xs.map fun x => (x - c) ^ k).sum =
    ∑ j ∈ Finset.range (k + 1), powerSum j xs * (-c) ^ (k - j) * k.choose j := by
  induction xs with
  | nil => simp [powerSum]
  | cons x xs ih =>
    have hsum (j : ℕ) : powerSum j (x :: xs) = x ^ j + powerSum j xs := by simp [powerSum]
    simp only [List.map_cons, List.sum_cons, ih, hsum, add_mul, Finset.sum_add_distrib]
    rw [sub_eq_add_neg, add_pow]

/-- The squared deviations, from the sum and the sum of the squares. -/
theorem deviations_two (hx : xs ≠ []) :
    deviations 2 xs = powerSum 2 xs - xs.sum * xs.sum / xs.length := by
  have hn : (xs.length : ℝ) ≠ 0 := by simpa using hx
  have hexpand := sum_sub_pow (average xs) 2 xs
  simp only [Finset.sum_range_succ, Finset.sum_range_zero, powerSum_zero, powerSum_one] at hexpand
  rw [deviations, hexpand, average]
  norm_num
  field_simp
  ring

/-- The cubed deviations, from the average and the sums of the powers up to the third. -/
theorem deviations_three : deviations 3 xs =
    powerSum 3 xs - 3 * average xs * powerSum 2 xs + 3 * (average xs * average xs) * xs.sum -
      xs.length * (average xs * average xs) * average xs := by
  have hexpand := sum_sub_pow (average xs) 3 xs
  simp only [Finset.sum_range_succ, Finset.sum_range_zero, powerSum_zero, powerSum_one] at hexpand
  rw [deviations, hexpand]
  norm_num [Nat.choose]
  ring

/-- The fourth powers of the deviations, from the average and the sums of the powers. -/
theorem deviations_four : deviations 4 xs =
    powerSum 4 xs - 4 * average xs * powerSum 3 xs +
      6 * (average xs * average xs) * powerSum 2 xs -
      4 * (average xs * average xs * average xs) * xs.sum +
      xs.length * (average xs * average xs * (average xs * average xs)) := by
  have hexpand := sum_sub_pow (average xs) 4 xs
  simp only [Finset.sum_range_succ, Finset.sum_range_zero, powerSum_zero, powerSum_one] at hexpand
  rw [deviations, hexpand]
  norm_num [Nat.choose]
  ring

theorem deviations_two_nonneg (xs : List ℝ) : 0 ≤ deviations 2 xs := by
  refine List.sum_nonneg fun y hy => ?_
  obtain ⟨x, -, rfl⟩ := List.mem_map.mp hy
  exact sq_nonneg _

/-- Products of differences add up to what the sums of the products say. -/
theorem sum_sub_mul_sub (c d : ℝ) (pairs : List (ℝ × ℝ)) :
    (pairs.map fun p => (p.1 - c) * (p.2 - d)).sum =
      (pairs.map fun p => p.1 * p.2).sum - d * (pairs.map Prod.fst).sum -
        c * (pairs.map Prod.snd).sum + pairs.length * (c * d) := by
  induction pairs with
  | nil => simp
  | cons p pairs ih =>
    simp only [List.map_cons, List.sum_cons, ih, List.length_cons]
    push_cast
    ring

theorem codeviations_eq (hx : xs ≠ []) (hl : ys.length = xs.length) : codeviations xs ys =
    ((xs.zip ys).map fun p => p.1 * p.2).sum - xs.sum * ys.sum / xs.length := by
  have hn : (xs.length : ℝ) ≠ 0 := by simpa using hx
  have hlength : (xs.zip ys).length = xs.length := by simp [hl]
  have hexpand := sum_sub_mul_sub (average xs) (average ys) (xs.zip ys)
  rw [List.map_fst_zip (by omega), List.map_snd_zip (by omega), hlength] at hexpand
  rw [codeviations, hexpand, average, average, hl]
  field_simp
  ring

theorem sum_map_zip_self (f : ℝ × ℝ → ℝ) (xs : List ℝ) :
    ((xs.zip xs).map f).sum = (xs.map fun x => f (x, x)).sum := by
  induction xs with
  | nil => rfl
  | cons x xs ih => simp only [List.zip_cons_cons, List.map_cons, List.sum_cons, ih]

/-- The deviations of a window with itself are the squared ones. -/
theorem codeviations_self (xs : List ℝ) : codeviations xs xs = deviations 2 xs := by
  rw [codeviations, sum_map_zip_self, deviations]
  simp only [pow_two]

/-- **Deviations in two windows** go together no more than those in one. -/
theorem abs_codeviations_le (hl : ys.length = xs.length) :
    |codeviations xs ys| ≤ √(deviations 2 xs) * √(deviations 2 ys) := by
  have hx : deviations 2 xs = ((xs.zip ys).map fun p => (p.1 - average xs) ^ 2).sum := by
    have hfst := congrArg (List.map fun x => (x - average xs) ^ 2)
      (List.map_fst_zip hl.ge)
    rw [List.map_map] at hfst
    rw [deviations, ← hfst]
    rfl
  have hy : deviations 2 ys = ((xs.zip ys).map fun p => (p.2 - average ys) ^ 2).sum := by
    have hsnd := congrArg (List.map fun y => (y - average ys) ^ 2)
      (List.map_snd_zip hl.le)
    rw [List.map_map] at hsnd
    rw [deviations, ← hsnd]
    rfl
  rw [← Real.sqrt_mul (deviations_two_nonneg xs), codeviations, hx, hy]
  refine Real.abs_le_sqrt ?_
  simp only [← Fin.sum_univ_fun_getElem]
  exact Finset.sum_mul_sq_le_sq_mul_sq _ _ _

end PanelCalc.Stats
