import Mathlib.Algebra.Order.Ring.Int
import Mathlib.Data.Prod.Lex
import PanelCalc.Ranking

/-! # The order of doubles

Doubles stand in a line: the missing one first, the others by sign, then by
exponent, then by digits, with the two zeros in one place. Comparing two that
are not missing compares their places. -/
namespace PanelCalc.Double

open Float.Model (UnpackedFloat)

/-- Where an unpacked double stands. -/
def placeOf : UnpackedFloat → ℤ ×ₗ ℤ ×ₗ ℤ
  | .notANumber => toLex (-3, toLex (0, 0))
  | .infinity .negative => toLex (-2, toLex (0, 0))
  | .finite .negative m e _ => toLex (-1, toLex (-e, -m))
  | .zero _ => toLex (0, toLex (0, 0))
  | .finite .positive m e _ => toLex (1, toLex (e, m))
  | .infinity .positive => toLex (2, toLex (0, 0))

/-- Where a double stands. -/
def place (x : Float) : ℤ ×ₗ ℤ ×ₗ ℤ := placeOf x.toModel.unpack

theorem compare_neg (a b : ℤ) : compare (-a) (-b) = (compare a b).swap := by
  rw [← Std.OrientedOrd.eq_swap]
  simp only [compare, compareOfLessAndEq]
  grind

theorem compare_natCast (m n : ℕ) : compare (m : ℤ) n = compare m n := by
  simp only [compare, compareOfLessAndEq]
  grind

theorem compare_toLex {α β : Type} [Ord α] [Ord β] (a a' : α) (b b' : β) :
    compare (toLex (a, b)) (toLex (a', b')) = (compare a a').then (compare b b') := by
  rw [Prod.Lex.compare_def]
  rfl

theorem compare_unpacked {u v : UnpackedFloat} (hu : ¬ u.isNaN) (hv : ¬ v.isNaN) :
    u.compare v = some (compare (placeOf u) (placeOf v)) := by
  rcases u with ⟨_ | _⟩ | _ | _ | ⟨_ | _, m, e⟩ <;> rcases v with ⟨_ | _⟩ | _ | _ | ⟨_ | _, n, d⟩
  all_goals first
    | exact absurd rfl hu
    | exact absurd rfl hv
    -- all but two finite doubles of one sign are told apart by the first component
    | rfl
    | show _ = some (compare (toLex (_, toLex (_, _))) (toLex (_, toLex (_, _))))
      rw [compare_toLex, compare_toLex]
  case finite.negative.finite.negative =>
    rw [compare_neg e, compare_neg m, compare_natCast, ← Ordering.swap_then]
    rfl
  case finite.positive.finite.positive =>
    rw [compare_natCast]
    rfl

variable {x y : Float}

theorem lt_iff_place (hx : ¬ x.isNaN) (hy : ¬ y.isNaN) : x < y ↔ place x < place y := by
  show decide (x.toModel < y.toModel) = true ↔ _
  rw [decide_eq_true_iff]
  show (x.toModel.unpack.compare y.toModel.unpack == some .lt) = true ↔ _
  rw [compare_unpacked hx hy, beq_iff_eq, Option.some.injEq]
  exact compare_lt_iff_lt

theorem le_iff_place (hx : ¬ x.isNaN) (hy : ¬ y.isNaN) : x ≤ y ↔ place x ≤ place y := by
  show decide (x.toModel ≤ y.toModel) = true ↔ _
  rw [decide_eq_true_iff]
  show (x.toModel.unpack.compare y.toModel.unpack).any (·.isLE) = true ↔ _
  rw [compare_unpacked hx hy, ← compare_le_iff_le]
  exact Ordering.isLE_iff_ne_gt

theorem beq_iff_place (hx : ¬ x.isNaN) (hy : ¬ y.isNaN) : (x == y) = true ↔ place x = place y := by
  show (x.toModel.unpack.compare y.toModel.unpack == some .eq) = true ↔ _
  rw [compare_unpacked hx hy, beq_iff_eq, Option.some.injEq]
  exact compare_eq_iff_eq

theorem unpack_of_isNaN (hx : x.isNaN) : x.toModel.unpack = .notANumber := by
  have h : x.toModel.unpack.isNaN = true := hx
  cases hu : x.toModel.unpack with
  | notANumber => rfl
  | _ =>
    rw [hu] at h
    cases h

/-- The missing double stands before all others. -/
theorem place_lt_of_isNaN (hx : x.isNaN) (hy : ¬ y.isNaN) : place x < place y := by
  have h : ¬ y.toModel.unpack.isNaN := hy
  rw [place, unpack_of_isNaN hx, Prod.Lex.lt_iff, place]
  refine .inl ?_
  rcases hu : y.toModel.unpack with ⟨_ | _⟩ | _ | _ | ⟨_ | _⟩
  case notANumber => exact absurd (by rw [hu]; rfl) h
  all_goals exact of_decide_eq_true rfl

/-- Nothing is compared with the missing double. -/
theorem not_le_of_isNaN (hy : y.isNaN) : ¬ x ≤ y := by
  show ¬ decide (x.toModel ≤ y.toModel) = true
  rw [decide_eq_true_iff]
  show ¬ (x.toModel.unpack.compare y.toModel.unpack).any (·.isLE) = true
  rw [unpack_of_isNaN hy]
  cases x.toModel.unpack <;> exact Bool.false_ne_true

/-- The missing double equals nothing. -/
theorem not_isNaN_of_beq (h : (x == y) = true) : ¬ x.isNaN ∧ ¬ y.isNaN := by
  have hcompare : (x.toModel.unpack.compare y.toModel.unpack == some .eq) = true := h
  constructor
  · intro hx
    rw [unpack_of_isNaN hx] at hcompare
    cases hcompare
  · intro hy
    rw [unpack_of_isNaN hy] at hcompare
    cases hx : x.toModel.unpack <;> rw [hx] at hcompare <;> cases hcompare

theorem beq_comm : (x == y) = (y == x) := by
  rw [Bool.eq_iff_iff]
  constructor
  · intro h
    obtain ⟨hx, hy⟩ := not_isNaN_of_beq h
    rwa [beq_iff_place hy hx, eq_comm, ← beq_iff_place hx hy]
  · intro h
    obtain ⟨hy, hx⟩ := not_isNaN_of_beq h
    rwa [beq_iff_place hx hy, eq_comm, ← beq_iff_place hy hx]

/-- Equal doubles equal the same ones. -/
theorem beq_congr (h : (x == y) = true) (z : Float) : (z == x) = (z == y) := by
  obtain ⟨hx, hy⟩ := not_isNaN_of_beq h
  have hxy := (beq_iff_place hx hy).mp h
  rw [Bool.eq_iff_iff]
  constructor
  · intro hz
    have hn := (not_isNaN_of_beq hz).1
    rw [beq_iff_place hn hx] at hz
    rw [beq_iff_place hn hy, hz, hxy]
  · intro hz
    have hn := (not_isNaN_of_beq hz).1
    rw [beq_iff_place hn hy] at hz
    rw [beq_iff_place hn hx, hz, hxy]

theorem beq_self (hx : ¬ x.isNaN) : (x == x) = true := (beq_iff_place hx hx).mpr rfl

end PanelCalc.Double

theorem PanelCalc.Cell.isNaN_missing : missing.isNaN = true := by decide
