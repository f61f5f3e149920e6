import PanelCalc.Builtin.Call
import PanelCalc.Proofs.Double.Values

/-! # Doubles that are natural numbers

A length of a window or a distance of a shift is read off the bits of a double.
What is read is the natural number that the double stands for, however large. -/
namespace PanelCalc.Double

open Float.Model (UnpackedFloat Format)
open Float.Model.UnpackedFloat

variable {x : Float} {n : Nat}

/-! ## The bits of a double -/

theorem toNat_unpackExponent (b : UInt64) : (@unpackExponent .binary64 b.toBitVec).toNat =
    b.toNat / Nat.pow 2 52 % Nat.pow 2 11 := by
  simp [unpackExponent, Nat.shiftRight_eq_div_pow]

theorem toNat_unpackMantissa (b : UInt64) : (@unpackMantissa .binary64 b.toBitVec).toNat =
    b.toNat % Nat.pow 2 52 := by
  simp [unpackMantissa]

theorem ofBitVec_unpackSign (b : UInt64) : Sign.ofBitVec (@unpackSign .binary64 b.toBitVec) =
    if b >>> 63 == 1 then .negative else .positive := by
  have hsign : (@unpackSign .binary64 b.toBitVec).toNat = b.toNat / 2 ^ 63 % 2 := by
    have hbits := BitVec.extractLsb_toNat 63 63 b.toBitVec
    rwa [Nat.shiftRight_eq_div_pow] at hbits
  have hbit : b >>> 63 = 1 ↔ b.toNat / 2 ^ 63 = 1 := by
    rw [← UInt64.toNat_inj, UInt64.toNat_shiftRight, Nat.shiftRight_eq_div_pow]
    rfl
  have hlt := b.toNat_lt
  by_cases h : b.toNat / 2 ^ 63 = 1
  · have hone : @unpackSign .binary64 b.toBitVec ≠ 0#1 := by
      rw [ne_eq, ← BitVec.toNat_inj, hsign, h]
      decide
    rw [Sign.ofBitVec, if_neg hone, if_pos (beq_iff_eq.mpr (hbit.mpr h))]
  · have hzero : @unpackSign .binary64 b.toBitVec = 0#1 := by
      rw [← BitVec.toNat_inj, hsign, BitVec.toNat_zero]
      omega
    rw [Sign.ofBitVec, if_pos hzero, if_neg (mt beq_iff_eq.mp (mt hbit.mp h))]

/-- The number in the bits of a double: its digits start with a one, unless the exponent is the
least one, and there are none if it is the greatest one. -/
theorem valueOf_unpack (b : BitVec 64) : valueOf (UnpackedFloat.unpack .binary64 b) =
    if (@unpackExponent .binary64 b).toNat = 2047 then none
    else if (@unpackExponent .binary64 b).toNat = 0 then
      some ((Sign.ofBitVec (@unpackSign .binary64 b)).apply (@unpackMantissa .binary64 b).toNat *
        2 ^ (-1074 : Int) : ℚ)
    else some ((Sign.ofBitVec (@unpackSign .binary64 b)).apply
      (2 ^ 52 + (@unpackMantissa .binary64 b).toNat : Nat) *
        2 ^ ((@unpackExponent .binary64 b).toNat - 1075 : Int) : ℚ) := by
  have hleading : (1#1 ++ @unpackMantissa .binary64 b).toNat =
      2 ^ 52 + (@unpackMantissa .binary64 b).toNat := by
    rw [BitVec.toNat_append, ← Nat.shiftLeft_add_eq_or_of_lt (BitVec.isLt _)]
    rfl
  have hgreatest : @unpackExponent .binary64 b = -1#11 ↔
      (@unpackExponent .binary64 b).toNat = 2047 := by
    rw [← BitVec.toNat_inj]
    rfl
  have hleast : @unpackExponent .binary64 b = 0#11 ↔
      (@unpackExponent .binary64 b).toNat = 0 := by
    rw [← BitVec.toNat_inj]
    rfl
  unfold UnpackedFloat.unpack
  by_cases hg : (@unpackExponent .binary64 b).toNat = 2047
  · rw [if_pos hg]
    refine (congrArg valueOf (if_pos (hgreatest.mpr hg))).trans ?_
    split <;> rfl
  · rw [if_neg hg]
    refine (congrArg valueOf (if_neg (mt hgreatest.mp hg))).trans ?_
    by_cases hl : (@unpackExponent .binary64 b).toNat = 0
    · rw [if_pos hl]
      refine (congrArg valueOf (if_pos (hleast.mpr hl))).trans ?_
      by_cases hm : @unpackMantissa .binary64 b = 0#52
      · refine (congrArg valueOf (dif_pos hm)).trans ?_
        generalize Sign.ofBitVec (@unpackSign .binary64 b) = sign
        show some (0 : ℚ) = _
        rw [hm]
        cases sign <;> simp [Sign.apply]
      · refine (congrArg valueOf (dif_neg hm)).trans ?_
        show some (_ * 2 ^ (((@unpackExponent .binary64 b).toNat : Int) - 1075 + 1) : ℚ) = _
        rw [hl]
        rfl
    · rw [if_neg hl]
      refine (congrArg valueOf (if_neg (mt hleast.mp hl))).trans ?_
      rw [← hleading]
      rfl

theorem isFinite_iff (x : Float) : x.isFinite = (value? x).isSome := by
  show x.toModel.unpack.isFinite = (valueOf x.toModel.unpack).isSome
  cases x.toModel.unpack <;> rfl

/-- The number that a magnitude and a sign make. -/
def Magnitude.value (negative : Bool) (size : Magnitude) : ℚ :=
  (if negative then -1 else 1) * (size.mantissa * 2 ^ size.exponent)

theorem Magnitude.value_mk (negative : Bool) (m : Nat) (e : Int) (narrow : Bool) :
    value negative ⟨m, e, narrow⟩ =
      ((if negative then .negative else .positive : Sign).apply m : Int) * 2 ^ e := by
  cases negative <;> simp [value, Sign.apply]

/-- A finite double stands for its magnitude, with its sign. -/
theorem value?_eq (hx : x.isFinite) : value? x = some ((magnitude x).value (isNegative x)) := by
  rw [isFinite_iff] at hx
  have hvalue : value? x = _ := valueOf_unpack x.toBits.toBitVec
  rw [ofBitVec_unpackSign, toNat_unpackExponent, toNat_unpackMantissa] at hvalue
  rw [hvalue] at hx ⊢
  have hfinite : x.toBits.toNat / Nat.pow 2 52 % Nat.pow 2 11 ≠ 2047 := by
    intro he
    rw [if_pos he] at hx
    cases hx
  rw [if_neg hfinite, magnitude]
  by_cases hl : x.toBits.toNat / Nat.pow 2 52 % Nat.pow 2 11 = 0
  · simp only [if_pos hl, Magnitude.value_mk]
    rfl
  · simp only [if_neg hl, Magnitude.value_mk]
    rfl

/-! ## Natural numbers -/

theorem Magnitude.value_neg {size : Magnitude} (hm : size.mantissa ≠ 0) :
    size.value true < 0 := by
  have hm : (0 : ℚ) < size.mantissa := by exact_mod_cast Nat.pos_of_ne_zero hm
  have hpower : (0 : ℚ) < 2 ^ size.exponent := zpow_pos two_pos _
  rw [value, if_pos rfl, neg_one_mul]
  exact neg_neg_of_pos (mul_pos hm hpower)

theorem Magnitude.value_of_not {negative : Bool} {size : Magnitude}
    (h : ¬ (negative && size.mantissa != 0) = true) :
    size.value negative = size.mantissa * 2 ^ size.exponent := by
  cases negative with
  | false => simp [value]
  | true =>
    have hm : size.mantissa = 0 := by simpa using h
    simp [value, hm]

/-- **What is read as a natural number** are the doubles that stand for one. -/
theorem natural?_eq_some : natural? x = some n ↔ value? x = some (n : ℚ) := by
  by_cases hx : x.isFinite
  · rw [natural?, if_pos hx, value?_eq hx, Option.some_inj]
    generalize magnitude x = size
    generalize isNegative x = negative
    dsimp only
    by_cases hneg : (negative && size.mantissa != 0) = true
    · rw [if_pos hneg]
      obtain ⟨rfl, hm⟩ : negative = true ∧ size.mantissa ≠ 0 := by simpa using hneg
      have hlt := size.value_neg hm
      have hle : (0 : ℚ) ≤ n := Nat.cast_nonneg n
      exact ⟨nofun, fun h => absurd (h ▸ hlt) (not_lt.mpr hle)⟩
    · rw [if_neg hneg, Magnitude.value_of_not hneg]
      by_cases he : 0 ≤ size.exponent
      · obtain ⟨k, hk⟩ := Int.eq_ofNat_of_zero_le he
        rw [if_pos he, hk, Option.some_inj, Int.toNat_natCast, zpow_natCast]
        exact_mod_cast Iff.rfl
      · obtain ⟨k, hk⟩ := Int.eq_ofNat_of_zero_le (by omega : 0 ≤ -size.exponent)
        have hpos : 0 < 2 ^ k := Nat.two_pow_pos k
        have hvalue : (size.mantissa * 2 ^ size.exponent : ℚ) = n ↔ size.mantissa = n * 2 ^ k := by
          rw [← neg_neg size.exponent, hk, zpow_neg, zpow_natCast, ← div_eq_mul_inv,
            div_eq_iff (pow_ne_zero k two_ne_zero)]
          exact_mod_cast Iff.rfl
        rw [if_neg he, hk, Int.toNat_natCast, hvalue, show Nat.pow 2 k = 2 ^ k from rfl]
        constructor
        · intro h
          split at h
          · rename_i hmod
            cases h
            exact (Nat.div_mul_cancel (Nat.dvd_of_mod_eq_zero hmod)).symm
          · cases h
        · rintro hm
          rw [hm, if_pos (Nat.mul_mod_left ..), Nat.mul_div_cancel _ hpos]
  · have hnone : value? x = none := by
      rwa [isFinite_iff, Option.isSome_iff_ne_none, not_not] at hx
    rw [natural?, if_neg hx, hnone]
    exact ⟨nofun, nofun⟩

/-- A number below `2 ^ 53` stands for itself. -/
theorem value?_ofNat (h : n < 2 ^ 53) : value? (Float.ofNat n) = some (n : ℚ) := by
  rcases Nat.eq_zero_or_pos n with rfl | hn
  · rfl
  · have hlog : n.log2 < 53 := (Nat.log2_lt hn.ne').mpr h
    have hvalue : value? (Float.ofNat n) = some _ := (digits_float hn h).valueOf
    rw [hvalue, show (n.log2 : Int) - 52 = -((52 - n.log2 : Nat) : Int) by omega, zpow_neg,
      zpow_natCast]
    push_cast
    rw [mul_inv_cancel_right₀ (pow_ne_zero _ two_ne_zero)]

end PanelCalc.Double

namespace PanelCalc.Value

variable {H : Type} {x : Float} {n : Nat}

/-- A window may have any length that is a natural number other than zero. -/
theorem toWindow_of_value? (function : String) (hx : Double.value? x = some (n : ℚ)) (hn : 1 ≤ n) :
    (scalar x : Value H).toWindow function = .ok n := by
  obtain ⟨n, rfl⟩ := Nat.exists_eq_add_of_le' hn
  simp only [toWindow, toScalar, bind, Except.bind, Double.natural?_eq_some.mpr hx]
  rfl

end PanelCalc.Value
