import Mathlib.Analysis.Real.Sqrt
import Mathlib.Tactic.Ring
import PanelCalc.Arithmetic

/-! # Exact numbers

Statistics read over the real numbers. A division by zero and the square root of
a negative number have no value, and neither has what is computed from them. -/
namespace PanelCalc

/-- A real number, or what comes of a division by zero or the square root of a negative number. -/
inductive Exact where
  | real (x : ℝ)
  | undefined

namespace Exact

/-- An operation that is defined for all numbers. -/
def lift (f : ℝ → ℝ → ℝ) : Exact → Exact → Exact
  | real x, real y => real (f x y)
  | _, _ => undefined

/-- The quotient by a number other than zero. -/
noncomputable def divide : Exact → Exact → Exact
  | real x, real y => if y = 0 then undefined else real (x / y)
  | _, _ => undefined

/-- The square root of a number that is not negative. -/
noncomputable def root : Exact → Exact
  | real x => if x < 0 then undefined else real √x
  | undefined => undefined

/-- The distance from zero. -/
def size : Exact → Exact
  | real x => real |x|
  | undefined => undefined

/-- Whether a number lies below another one. -/
def Below : Exact → Exact → Prop
  | real x, real y => x < y
  | real _, undefined => True
  | undefined, _ => False

/-- Whether a number does not lie above another one. -/
def AtMost : Exact → Exact → Prop
  | real x, real y => x ≤ y
  | _, undefined => True
  | undefined, real _ => False

/-- What is undefined counts as finite and above all numbers, so that no test for a number that is
large enough leaves it out. -/
noncomputable instance : Arithmetic Exact where
  add := lift (· + ·)
  sub := lift (· - ·)
  mul := lift (· * ·)
  div := divide
  lt := Below
  le := AtMost
  ofNat n := real n
  sqrt := root
  abs := size
  isFinite _ := true
  decLT := Classical.decRel _
  decLE := Classical.decRel _

open Arithmetic

variable {x y : ℝ}

theorem real_ne_undefined : real x ≠ undefined := nofun

@[simp] theorem real_add (x y : ℝ) : real x + real y = real (x + y) := rfl

@[simp] theorem real_sub (x y : ℝ) : real x - real y = real (x - y) := rfl

@[simp] theorem real_mul (x y : ℝ) : real x * real y = real (x * y) := rfl

theorem real_div (x : ℝ) (hy : y ≠ 0) : real x / real y = real (x / y) := if_neg hy

@[simp] theorem ofNat_eq (n : ℕ) : (ofNat n : Exact) = real n := rfl

theorem sqrt_real (hx : 0 ≤ x) : sqrt (real x) = real √x := if_neg (not_lt.mpr hx)

@[simp] theorem abs_real (x : ℝ) : abs (real x) = real |x| := rfl

@[simp] theorem isFinite_eq (e : Exact) : isFinite e = true := rfl

@[simp] theorem real_lt : real x < real y ↔ x < y := Iff.rfl

@[simp] theorem real_le : real x ≤ real y ↔ x ≤ y := Iff.rfl

/-- Repeated squaring multiplies by the power that is left. -/
theorem powerFrom_real (x y : ℝ) (n : ℕ) : powerFrom (real x) (real y) n = real (x * y ^ n) := by
  induction n using Nat.strong_induction_on generalizing x y with
  | _ n ih =>
    -- one binary digit of the exponent is used up, and the base is squared
    have step : (if n % 2 = 1 then real x * real y else real x) = real (x * y ^ (n % 2)) := by
      rcases Nat.mod_two_eq_zero_or_one n with h | h <;> simp [h]
    rw [powerFrom, step]
    by_cases hn : n < 2
    · rw [if_pos hn, Nat.mod_eq_of_lt hn]
    · rw [if_neg hn, real_mul, ih (n / 2) (by omega), mul_assoc, ← pow_two, ← pow_mul, ← pow_add,
        Nat.mod_add_div]

@[simp] theorem power_real (x : ℝ) (n : ℕ) : power (real x) n = real (x ^ n) := by
  rw [power, ofNat_eq, powerFrom_real, Nat.cast_one, one_mul]

end Exact

end PanelCalc
