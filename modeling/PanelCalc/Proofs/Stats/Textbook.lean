import PanelCalc.Proofs.Stats.Exact
import PanelCalc.Proofs.Stats.PowerSums
import PanelCalc.Stats.JointMoments
import PanelCalc.Stats.Moments

/-! # Window statistics and their definitions

Read over the real numbers, the statistics of a window are those of the textbooks:
what is computed in one pass from the sums of the powers is the one that is defined
by the deviations from the average. Nothing on the way is divided by zero, and no
root is taken of a negative number. -/
namespace PanelCalc.Stats
open Exact

variable {xs ys : List ℝ} {r : Exact}

/-- A statistic of a window of real numbers. -/
noncomputable def ofReals (statistic : Moments Exact → Option Exact) (xs : List ℝ) : Option Exact :=
  Moments.ofWindow? (xs.map real) >>= statistic

/-- A statistic of two windows of real numbers. -/
noncomputable def ofRealPairs (statistic : JointMoments Exact → Option Exact) (xs ys : List ℝ) :
    Option Exact :=
  JointMoments.ofWindows? (xs.map real) (ys.map real) >>= statistic

/-- The sample standard deviation. -/
noncomputable def standardDeviation (xs : List ℝ) : ℝ := √(deviations 2 xs / (xs.length - 1))

/-- What the cubed deviations are divided by. -/
noncomputable def skewnessScale (xs : List ℝ) : ℝ :=
  (xs.length - 1) * (xs.length - 2) * standardDeviation xs ^ 3

/-- The bias-corrected sample skewness. -/
noncomputable def skewness (xs : List ℝ) : ℝ := xs.length * deviations 3 xs / skewnessScale xs

/-- What the fourth powers of the deviations are divided by. -/
noncomputable def kurtosisScale (xs : List ℝ) : ℝ :=
  (xs.length - 1) * (xs.length - 2) * (xs.length - 3) * standardDeviation xs ^ 4

/-- The bias-corrected excess kurtosis. -/
noncomputable def excessKurtosis (xs : List ℝ) : ℝ :=
  xs.length * (xs.length + 1) * deviations 4 xs / kurtosisScale xs -
    3 * (xs.length - 1) ^ 2 / ((xs.length - 2) * (xs.length - 3))

/-- The sample covariance. -/
noncomputable def covariance (xs ys : List ℝ) : ℝ := codeviations xs ys / (xs.length - 1)

/-- The correlation coefficient. -/
noncomputable def correlation (xs ys : List ℝ) : ℝ :=
  codeviations xs ys / (√(deviations 2 xs) * √(deviations 2 ys))

/-! ## The moments -/

/-- The moments of real numbers. -/
def exactMoments (xs : List ℝ) : Moments Exact :=
  ⟨xs.length, real xs.sum, real (powerSum 2 xs), real (powerSum 3 xs), real (powerSum 4 xs)⟩

/-- The joint moments of pairs of real numbers. -/
def exactJointMoments (pairs : List (ℝ × ℝ)) : JointMoments Exact where
  count := pairs.length
  sumX := real (pairs.map Prod.fst).sum
  sumY := real (pairs.map Prod.snd).sum
  squaresX := real (powerSum 2 (pairs.map Prod.fst))
  squaresY := real (powerSum 2 (pairs.map Prod.snd))
  products := real (pairs.map fun p => p.1 * p.2).sum

theorem exactMoments_concat (xs : List ℝ) (x : ℝ) :
    (exactMoments xs).add (real x) = exactMoments (xs ++ [x]) := by
  simp only [exactMoments, Moments.add, powerSum, real_mul, real_add, List.length_append,
    List.map_append, List.sum_append, List.length_cons, List.length_nil, List.map_cons,
    List.map_nil, List.sum_cons, List.sum_nil, add_zero]
  congr 3 <;> ring

theorem foldl_add (xs : List ℝ) :
    (xs.map real).foldl Moments.add Moments.zero = exactMoments xs := by
  induction xs using List.reverseRecOn with
  | nil => simp [exactMoments, Moments.zero, powerSum]
  | append_singleton xs x ih =>
    rw [List.map_append, List.foldl_append, ih]
    exact exactMoments_concat xs x

theorem ofWindow?_eq_some {m : Moments Exact} :
    Moments.ofWindow? (xs.map real) = some m ↔ xs ≠ [] ∧ m = exactMoments xs := by
  rw [Moments.ofWindow?, foldl_add, Option.ite_none_right_eq_some, Option.some_inj,
    eq_comm (b := m)]
  simp

theorem ofReals_eq (statistic : Moments Exact → Option Exact) (hx : xs ≠ []) :
    ofReals statistic xs = statistic (exactMoments xs) := by
  rw [ofReals, ofWindow?_eq_some.mpr ⟨hx, rfl⟩, Option.bind_eq_bind, Option.bind_some]

theorem ofReals_nil (statistic : Moments Exact → Option Exact) : ofReals statistic [] = none := rfl

theorem exactJointMoments_concat (pairs : List (ℝ × ℝ)) (x y : ℝ) :
    (exactJointMoments pairs).add (real x, real y) = exactJointMoments (pairs ++ [(x, y)]) := by
  simp only [exactJointMoments, JointMoments.add, powerSum, real_mul, real_add, List.length_append,
    List.map_append, List.sum_append, List.length_cons, List.length_nil, List.map_cons,
    List.map_nil, List.sum_cons, List.sum_nil, add_zero, pow_two]

theorem foldl_addPairs (pairs : List (ℝ × ℝ)) :
    (pairs.map fun p => (real p.1, real p.2)).foldl JointMoments.add JointMoments.zero =
      exactJointMoments pairs := by
  induction pairs using List.reverseRecOn with
  | nil => simp [exactJointMoments, JointMoments.zero, powerSum]
  | append_singleton pairs p ih =>
    rw [List.map_append, List.foldl_append, ih]
    exact exactJointMoments_concat pairs p.1 p.2

theorem ofWindows?_eq_some {m : JointMoments Exact} :
    JointMoments.ofWindows? (xs.map real) (ys.map real) = some m ↔
      xs ≠ [] ∧ ys.length = xs.length ∧ m = exactJointMoments (xs.zip ys) := by
  have hfold : ((xs.map real).zip (ys.map real)).foldl JointMoments.add JointMoments.zero =
      exactJointMoments (xs.zip ys) := by
    rw [List.zip_map]
    exact foldl_addPairs _
  rw [JointMoments.ofWindows?, hfold, Option.ite_none_right_eq_some, Option.some_inj,
    eq_comm (b := m)]
  simp [eq_comm (a := xs.length), and_assoc]

theorem ofRealPairs_eq (statistic : JointMoments Exact → Option Exact) (hx : xs ≠ [])
    (hl : ys.length = xs.length) :
    ofRealPairs statistic xs ys = statistic (exactJointMoments (xs.zip ys)) := by
  rw [ofRealPairs, ofWindows?_eq_some.mpr ⟨hx, hl, rfl⟩, Option.bind_eq_bind, Option.bind_some]

theorem ofRealPairs_eq_none (statistic : JointMoments Exact → Option Exact)
    (h : ¬ (xs ≠ [] ∧ ys.length = xs.length)) : ofRealPairs statistic xs ys = none := by
  have hnone : JointMoments.ofWindows? (xs.map real) (ys.map real) = none := by
    refine Option.eq_none_iff_forall_ne_some.mpr fun m hm => h ?_
    obtain ⟨hx, hl, -⟩ := ofWindows?_eq_some.mp hm
    exact ⟨hx, hl⟩
  rw [ofRealPairs, hnone]
  rfl

/-! ## One window -/

theorem mean_exact (hx : xs ≠ []) : (exactMoments xs).mean = real (average xs) := by
  have hn : (xs.length : ℝ) ≠ 0 := by simpa using hx
  exact real_div _ hn

/-- The sample variance: the squared deviations are not negative, and raising what is below zero
to zero changes nothing. -/
theorem variance_exact (hx : 2 ≤ xs.length) :
    (exactMoments xs).variance = real (deviations 2 xs / (xs.length - 1)) := by
  have hne : xs ≠ [] := by rintro rfl; simp at hx
  have hn : (xs.length : ℝ) ≠ 0 := by simpa using hne
  have hone : (0 : ℝ) < xs.length - 1 := by
    have : (2 : ℝ) ≤ xs.length := by exact_mod_cast hx
    linarith
  have hnonneg : 0 ≤ deviations 2 xs / (xs.length - 1) :=
    div_nonneg (deviations_two_nonneg xs) hone.le
  simp only [Moments.variance, Moments.size, exactMoments, ofNat_eq, real_mul, real_sub,
    real_div _ hn, Nat.cast_one, real_div _ hone.ne', ← deviations_two hne, Nat.cast_zero, real_lt]
  split
  · rfl
  · rw [le_antisymm (not_lt.mp ‹_›) hnonneg]

theorem stdDev?_exact (hx : 2 ≤ xs.length) :
    (exactMoments xs).stdDev? = some (real (standardDeviation xs)) := by
  have hcount : ¬ (exactMoments xs).count ≤ 1 := by simp only [exactMoments]; omega
  have hone : (0 : ℝ) ≤ xs.length - 1 := by
    have : (2 : ℝ) ≤ xs.length := by exact_mod_cast hx
    linarith
  rw [Moments.stdDev?, if_neg hcount, variance_exact hx,
    sqrt_real (div_nonneg (deviations_two_nonneg xs) hone), standardDeviation]

theorem spread?_exact (hx : 2 ≤ xs.length) : (exactMoments xs).spread? =
    if 0 < standardDeviation xs then some (real (standardDeviation xs)) else none := by
  simp [Moments.spread?, stdDev?_exact hx]

theorem cubedDeviations_exact (hx : xs ≠ []) :
    (exactMoments xs).cubedDeviations = real (deviations 3 xs) := by
  rw [Moments.cubedDeviations, mean_exact hx, deviations_three]
  rfl

theorem quarticDeviations_exact (hx : xs ≠ []) :
    (exactMoments xs).quarticDeviations = real (deviations 4 xs) := by
  rw [Moments.quarticDeviations, mean_exact hx, deviations_four]
  rfl

/-- What a denominator has to exceed, read over the real numbers. -/
theorem abs_le_negligible (scale : ℝ) :
    Arithmetic.abs (real scale) ≤ Moments.negligible ↔ ¬ 1 / 2 ^ 52 < |scale| := by
  have hnegligible : (Moments.negligible : Exact) = real (1 / 2 ^ 52) := by
    rw [Moments.negligible, ofNat_eq, ofNat_eq, real_div] <;> norm_num
  rw [hnegligible, abs_real, real_le, not_lt]

theorem ne_zero_of_lt_abs {scale : ℝ} (h : 1 / 2 ^ 52 < |scale|) : scale ≠ 0 := by
  rintro rfl
  norm_num at h

/-- The skewness is let through where the observations spread enough. -/
theorem skewness?_exact (hx : 3 ≤ xs.length) : (exactMoments xs).skewness? =
    if 0 < standardDeviation xs ∧ 1 / 2 ^ 52 < |skewnessScale xs| then some (real (skewness xs))
    else none := by
  have hne : xs ≠ [] := by rintro rfl; simp at hx
  have hcount : ¬ (exactMoments xs).count ≤ 2 := by simp only [exactMoments]; omega
  have hsize : (exactMoments xs).size = real xs.length := rfl
  rw [Moments.skewness?, if_neg hcount, spread?_exact (by omega)]
  by_cases hspread : 0 < standardDeviation xs
  · simp only [hspread, if_true, true_and, Option.bind_eq_bind, Option.bind_some, hsize,
      cubedDeviations_exact hne, power_real, ofNat_eq, Nat.cast_one, Nat.cast_ofNat, real_mul,
      real_sub]
    change (if Arithmetic.abs (real (skewnessScale xs)) ≤ Moments.negligible then none
      else some (real _ / real (skewnessScale xs))) = _
    by_cases hlarge : 1 / 2 ^ 52 < |skewnessScale xs|
    · rw [if_neg (by simpa only [abs_le_negligible, not_not]), if_pos hlarge,
        real_div _ (ne_zero_of_lt_abs hlarge), skewness]
    · rw [if_pos ((abs_le_negligible _).mpr hlarge), if_neg hlarge]
  · simp [hspread]

/-- The kurtosis is let through where the observations spread enough. -/
theorem kurtosis?_exact (hx : 4 ≤ xs.length) : (exactMoments xs).kurtosis? =
    if 0 < standardDeviation xs ∧ 1 / 2 ^ 52 < |kurtosisScale xs|
    then some (real (excessKurtosis xs)) else none := by
  have hne : xs ≠ [] := by rintro rfl; simp at hx
  have hcount : ¬ (exactMoments xs).count ≤ 3 := by simp only [exactMoments]; omega
  have hsize : (exactMoments xs).size = real xs.length := rfl
  have hlength : (4 : ℝ) ≤ xs.length := by exact_mod_cast hx
  have hnormal : ((xs.length : ℝ) - 2) * (xs.length - 3) ≠ 0 :=
    (mul_pos (by linarith) (by linarith)).ne'
  rw [Moments.kurtosis?, if_neg hcount, spread?_exact (by omega)]
  by_cases hspread : 0 < standardDeviation xs
  · simp only [hspread, if_true, true_and, Option.bind_eq_bind, Option.bind_some, hsize,
      quarticDeviations_exact hne, power_real, ofNat_eq, Nat.cast_one, Nat.cast_ofNat, real_mul,
      real_sub, real_add]
    change (if Arithmetic.abs (real (kurtosisScale xs)) ≤ Moments.negligible then none
      else some (real _ / real (kurtosisScale xs) - real _ / real _)) = _
    by_cases hlarge : 1 / 2 ^ 52 < |kurtosisScale xs|
    · rw [if_neg (by simpa only [abs_le_negligible, not_not]), if_pos hlarge,
        real_div _ (ne_zero_of_lt_abs hlarge), real_div _ hnormal, real_sub, excessKurtosis]
    · rw [if_pos ((abs_le_negligible _).mpr hlarge), if_neg hlarge]
  · simp [hspread]

/-! ## Two windows -/

section Pairs

variable (hx : xs ≠ []) (hl : ys.length = xs.length)
include hx hl

theorem codeviations_exact :
    (exactJointMoments (xs.zip ys)).codeviations = real (codeviations xs ys) := by
  have hn : (xs.length : ℝ) ≠ 0 := by simpa using hx
  have hlength : (xs.zip ys).length = xs.length := by simp [hl]
  simp only [JointMoments.codeviations, JointMoments.size, exactJointMoments, ofNat_eq, real_mul,
    hlength, real_div _ hn, real_sub]
  rw [List.map_fst_zip (by omega), List.map_snd_zip (by omega), codeviations_eq hx hl]

theorem deviationsX_exact :
    (exactJointMoments (xs.zip ys)).deviationsX = real (deviations 2 xs) := by
  have hn : (xs.length : ℝ) ≠ 0 := by simpa using hx
  have hlength : (xs.zip ys).length = xs.length := by simp [hl]
  simp only [JointMoments.deviationsX, JointMoments.size, exactJointMoments, ofNat_eq, real_mul,
    hlength, real_div _ hn, real_sub]
  rw [List.map_fst_zip (by omega), deviations_two hx]

theorem deviationsY_exact :
    (exactJointMoments (xs.zip ys)).deviationsY = real (deviations 2 ys) := by
  have hy : ys ≠ [] := by rintro rfl; exact hx (List.length_eq_zero_iff.mp hl.symm)
  have hn : (ys.length : ℝ) ≠ 0 := by simpa using hy
  have hlength : (xs.zip ys).length = ys.length := by simp [hl]
  simp only [JointMoments.deviationsY, JointMoments.size, exactJointMoments, ofNat_eq, real_mul,
    hlength, real_div _ hn, real_sub]
  rw [List.map_snd_zip (by omega), deviations_two hy]

end Pairs

theorem covariance?_exact (hx : 2 ≤ xs.length) (hl : ys.length = xs.length) :
    (exactJointMoments (xs.zip ys)).covariance? = some (real (covariance xs ys)) := by
  have hne : xs ≠ [] := by rintro rfl; simp at hx
  have hlength : (exactJointMoments (xs.zip ys)).count = xs.length := by
    simp [exactJointMoments, hl]
  have hone : (xs.length : ℝ) - 1 ≠ 0 := by
    have : (2 : ℝ) ≤ xs.length := by exact_mod_cast hx
    linarith
  rw [JointMoments.covariance?, if_neg (by omega), codeviations_exact hne hl, JointMoments.size,
    hlength]
  simp only [ofNat_eq, real_sub, Nat.cast_one, real_div _ hone, covariance]

/-- The correlation is let through where neither window is flat. -/
theorem correlation?_exact (hx : xs ≠ []) (hl : ys.length = xs.length) :
    (exactJointMoments (xs.zip ys)).correlation? =
      if 1 / 10 ^ 12 < deviations 2 xs ∧ 1 / 10 ^ 12 < deviations 2 ys
      then some (real (correlation xs ys)) else none := by
  have hflat : (JointMoments.flatness : Exact) = real (1 / 10 ^ 12) := by
    rw [JointMoments.flatness, ofNat_eq, ofNat_eq, real_div] <;> norm_num
  have hguard : real (deviations 2 xs) ≤ JointMoments.flatness ∨
      real (deviations 2 ys) ≤ JointMoments.flatness ↔
      ¬ (1 / 10 ^ 12 < deviations 2 xs ∧ 1 / 10 ^ 12 < deviations 2 ys) := by
    rw [hflat, real_le, real_le, not_and_or, not_lt, not_lt]
  rw [JointMoments.correlation?, deviationsX_exact hx hl, deviationsY_exact hx hl,
    codeviations_exact hx hl]
  by_cases hwide : 1 / 10 ^ 12 < deviations 2 xs ∧ 1 / 10 ^ 12 < deviations 2 ys
  · have hposX : 0 < deviations 2 xs := lt_trans (by norm_num) hwide.1
    have hposY : 0 < deviations 2 ys := lt_trans (by norm_num) hwide.2
    rw [if_neg (by rwa [hguard, not_not]), if_pos hwide, sqrt_real hposX.le,
      sqrt_real hposY.le, real_mul,
      real_div _ (mul_pos (Real.sqrt_pos.mpr hposX) (Real.sqrt_pos.mpr hposY)).ne', correlation]
  · rw [if_pos (hguard.mpr hwide), if_neg hwide]

/-- **A correlation** is a number from minus one to one. -/
theorem abs_correlation_le_one (hl : ys.length = xs.length) : |correlation xs ys| ≤ 1 := by
  have hscale : 0 ≤ √(deviations 2 xs) * √(deviations 2 ys) :=
    mul_nonneg (Real.sqrt_nonneg _) (Real.sqrt_nonneg _)
  rw [correlation, abs_div, abs_of_nonneg hscale]
  exact div_le_one_of_le₀ (abs_codeviations_le hl) hscale

/-- The covariance of a window with itself is its variance. -/
theorem covariance_self (hx : xs ≠ []) : covariance xs xs = standardDeviation xs ^ 2 := by
  have hone : (0 : ℝ) ≤ xs.length - 1 := by
    have : 1 ≤ xs.length := List.length_pos_iff.mpr hx
    have : (1 : ℝ) ≤ xs.length := by exact_mod_cast this
    linarith
  rw [covariance, codeviations_self, standardDeviation,
    Real.sq_sqrt (div_nonneg (deviations_two_nonneg xs) hone)]

/-! ## The statistics -/

theorem ofReals_stdDev? (xs : List ℝ) : ofReals Moments.stdDev? xs =
    if 2 ≤ xs.length then some (real (standardDeviation xs)) else none := by
  rcases eq_or_ne xs [] with rfl | hne
  · rfl
  · rw [ofReals_eq _ hne]
    split
    · exact stdDev?_exact ‹_›
    · exact if_pos (by simp only [exactMoments]; omega)

theorem ofReals_skewness? (xs : List ℝ) : ofReals Moments.skewness? xs =
    if 3 ≤ xs.length ∧ 0 < standardDeviation xs ∧ 1 / 2 ^ 52 < |skewnessScale xs|
    then some (real (skewness xs)) else none := by
  rcases eq_or_ne xs [] with rfl | hne
  · simp [ofReals_nil]
  · rw [ofReals_eq _ hne]
    by_cases hlength : 3 ≤ xs.length
    · rw [skewness?_exact hlength]
      simp only [hlength, true_and]
    · have hcount : (exactMoments xs).count ≤ 2 := by simp only [exactMoments]; omega
      rw [if_neg fun h => hlength h.1, Moments.skewness?, if_pos hcount]
      rfl

theorem ofReals_kurtosis? (xs : List ℝ) : ofReals Moments.kurtosis? xs =
    if 4 ≤ xs.length ∧ 0 < standardDeviation xs ∧ 1 / 2 ^ 52 < |kurtosisScale xs|
    then some (real (excessKurtosis xs)) else none := by
  rcases eq_or_ne xs [] with rfl | hne
  · simp [ofReals_nil]
  · rw [ofReals_eq _ hne]
    by_cases hlength : 4 ≤ xs.length
    · rw [kurtosis?_exact hlength]
      simp only [hlength, true_and]
    · have hcount : (exactMoments xs).count ≤ 3 := by simp only [exactMoments]; omega
      rw [if_neg fun h => hlength h.1, Moments.kurtosis?, if_pos hcount]
      rfl

theorem ofRealPairs_covariance? (xs ys : List ℝ) : ofRealPairs JointMoments.covariance? xs ys =
    if 2 ≤ xs.length ∧ ys.length = xs.length then some (real (covariance xs ys)) else none := by
  by_cases hpairs : xs ≠ [] ∧ ys.length = xs.length
  · rw [ofRealPairs_eq _ hpairs.1 hpairs.2]
    by_cases hlength : 2 ≤ xs.length
    · rw [covariance?_exact hlength hpairs.2, if_pos ⟨hlength, hpairs.2⟩]
    · have hcount : (exactJointMoments (xs.zip ys)).count ≤ 1 := by
        simp only [exactJointMoments, List.length_zip]
        omega
      rw [if_neg fun h => hlength h.1, JointMoments.covariance?, if_pos hcount]
  · rw [ofRealPairs_eq_none _ hpairs, if_neg]
    rintro ⟨hlength, hl⟩
    exact hpairs ⟨by rintro rfl; simp at hlength, hl⟩

theorem ofRealPairs_correlation? (xs ys : List ℝ) : ofRealPairs JointMoments.correlation? xs ys =
    if xs ≠ [] ∧ ys.length = xs.length ∧
      1 / 10 ^ 12 < deviations 2 xs ∧ 1 / 10 ^ 12 < deviations 2 ys
    then some (real (correlation xs ys)) else none := by
  by_cases hpairs : xs ≠ [] ∧ ys.length = xs.length
  · rw [ofRealPairs_eq _ hpairs.1 hpairs.2, correlation?_exact hpairs.1 hpairs.2]
    simp only [hpairs.1, hpairs.2, ne_eq, not_false_eq_true, true_and]
  · rw [ofRealPairs_eq_none _ hpairs, if_neg]
    exact fun h => hpairs ⟨h.1, h.2.1⟩

/-- **One-pass statistics** are the ones that textbooks define by the deviations from the average.
The tests that leave a window out look at its length and its spread only; what passes them is
neither divided by zero nor the root of a negative number, on no way to a result. -/
theorem statistics_exact (xs ys : List ℝ) :
    ofReals Moments.stdDev? xs =
      (if 2 ≤ xs.length then some (real √(deviations 2 xs / (xs.length - 1))) else none) ∧
    ofReals Moments.skewness? xs =
      (if 3 ≤ xs.length ∧ 0 < standardDeviation xs ∧ 1 / 2 ^ 52 < |skewnessScale xs|
        then some (real (skewness xs)) else none) ∧
    ofReals Moments.kurtosis? xs =
      (if 4 ≤ xs.length ∧ 0 < standardDeviation xs ∧ 1 / 2 ^ 52 < |kurtosisScale xs|
        then some (real (excessKurtosis xs)) else none) ∧
    ofRealPairs JointMoments.covariance? xs ys =
      (if 2 ≤ xs.length ∧ ys.length = xs.length
        then some (real (codeviations xs ys / (xs.length - 1))) else none) ∧
    ofRealPairs JointMoments.covariance? xs xs = (ofReals Moments.stdDev? xs).map (fun s => s * s) ∧
    (∀ r, ofRealPairs JointMoments.correlation? xs ys = some r →
      r = real (correlation xs ys) ∧ -1 ≤ correlation xs ys ∧ correlation xs ys ≤ 1) ∧
    (∀ m, Moments.ofWindow? (xs.map real) = some m →
      m.mean ≠ undefined ∧ (1 < m.count → m.variance ≠ undefined) ∧
      m.stdDev? ≠ some undefined ∧ m.skewness? ≠ some undefined ∧ m.kurtosis? ≠ some undefined) ∧
    (∀ m, JointMoments.ofWindows? (xs.map real) (ys.map real) = some m →
      m.codeviations ≠ undefined ∧ m.deviationsX ≠ undefined ∧ m.deviationsY ≠ undefined ∧
      m.covariance? ≠ some undefined ∧ m.correlation? ≠ some undefined) := by
  refine ⟨ofReals_stdDev? xs, ofReals_skewness? xs, ofReals_kurtosis? xs,
    ofRealPairs_covariance? xs ys, ?self, ?bounded, ?window, ?windows⟩
  case self =>
    rw [ofRealPairs_covariance?, ofReals_stdDev?]
    by_cases hlength : 2 ≤ xs.length
    · have hne : xs ≠ [] := by rintro rfl; simp at hlength
      simp [hlength, covariance_self hne, pow_two]
    · simp [hlength]
  case bounded =>
    intro r hr
    rw [ofRealPairs_correlation?] at hr
    split at hr
    · rename_i h
      exact ⟨(Option.some.inj hr).symm, abs_le.mp (abs_correlation_le_one h.2.1)⟩
    · cases hr
  case window =>
    intro m hm
    obtain ⟨hne, rfl⟩ := ofWindow?_eq_some.mp hm
    refine ⟨?_, fun hcount => ?_, ?_, ?_, ?_⟩
    · rw [mean_exact hne]
      exact real_ne_undefined
    · rw [variance_exact hcount]
      exact real_ne_undefined
    · rw [← ofReals_eq Moments.stdDev? hne, ofReals_stdDev?]
      split <;> simp
    · rw [← ofReals_eq Moments.skewness? hne, ofReals_skewness?]
      split <;> simp
    · rw [← ofReals_eq Moments.kurtosis? hne, ofReals_kurtosis?]
      split <;> simp
  case windows =>
    intro m hm
    obtain ⟨hne, hl, rfl⟩ := ofWindows?_eq_some.mp hm
    refine ⟨?_, ?_, ?_, ?_, ?_⟩
    · rw [codeviations_exact hne hl]
      exact real_ne_undefined
    · rw [deviationsX_exact hne hl]
      exact real_ne_undefined
    · rw [deviationsY_exact hne hl]
      exact real_ne_undefined
    · rw [← ofRealPairs_eq JointMoments.covariance? hne hl, ofRealPairs_covariance?]
      split <;> simp
    · rw [← ofRealPairs_eq JointMoments.correlation? hne hl, ofRealPairs_correlation?]
      split <;> simp

/-- A lopsided window has a skewness, and no kurtosis for want of a fourth observation. -/
theorem statistics_exact_lopsided :
    ofReals Moments.stdDev? [0, 0, 3] = some (real √3) ∧
    ofReals Moments.skewness? [0, 0, 3] = some (real √3) ∧
    ofReals Moments.kurtosis? [0, 0, 3] = none ∧
    ofRealPairs JointMoments.covariance? [0, 0, 3] [0, 0, 3] = some (real 3) := by
  obtain ⟨hdev, hskew, hkurt, -, hself, -⟩ := statistics_exact [0, 0, 3] []
  have haverage : average [0, 0, 3] = 1 := by norm_num [average]
  have hsquares : deviations 2 [0, 0, 3] = 6 := by norm_num [deviations, haverage]
  have hcubes : deviations 3 [0, 0, 3] = 6 := by norm_num [deviations, haverage]
  have hspread : standardDeviation [0, 0, 3] = √3 := by norm_num [standardDeviation, hsquares]
  have hroot : √(3 : ℝ) ^ 2 = 3 := Real.sq_sqrt (by norm_num)
  have hscale : skewnessScale [0, 0, 3] = 6 * √3 := by
    rw [skewnessScale, hspread, pow_succ, hroot]
    norm_num
    ring
  have hlarge : 1 / 2 ^ 52 < |6 * √(3 : ℝ)| := by
    rw [abs_of_nonneg (by positivity)]
    have : (1 : ℝ) ≤ √3 := Real.one_le_sqrt.mpr (by norm_num)
    linarith
  have hskewness : skewness [0, 0, 3] = √3 := by
    rw [skewness, hcubes, hscale, div_eq_iff (by positivity)]
    norm_num
    linarith
  have hstd : ofReals Moments.stdDev? [0, 0, 3] = some (real √3) := by
    rw [hdev, if_pos (by decide), ← hspread, standardDeviation]
  refine ⟨hstd, ?_, ?_, ?_⟩
  · rw [hskew, hspread, hscale, hskewness, if_pos ⟨by decide, by positivity, hlarge⟩]
  · rw [hkurt, if_neg fun h => absurd h.1 (by decide)]
  · rw [hself, hstd, Option.map_some, real_mul, ← pow_two, hroot]

end PanelCalc.Stats
