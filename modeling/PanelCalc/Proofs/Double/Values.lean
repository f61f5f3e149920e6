import Mathlib.Algebra.Order.Field.Rat
import Mathlib.Tactic.FieldSimp
import Mathlib.Tactic.Ring
import PanelCalc.Proofs.Double.Unsigned

/-! # The numbers that doubles stand for

A finite double stands for a rational number. Natural numbers below `2 ^ 53` stand
for themselves, and halving them loses nothing: digits only move, and none of them
leaves the 53 that there are. -/
namespace PanelCalc.Double

open Float.Model (UnpackedFloat Format totalExponent)
open Float.Model.UnpackedFloat

/-- The number that an unpacked double stands for. -/
def valueOf : UnpackedFloat → Option ℚ
  | .finite s m e _ => some (s.apply m * 2 ^ e)
  | .zero _ => some 0
  | .infinity _ | .notANumber => none

/-- The number that a double stands for, unless it is infinite or missing. -/
def value? (x : Float) : Option ℚ := valueOf x.toModel.unpack

variable {s : Sign} {m k n : Nat} {e : Int}

/-! ## Digits that move -/

/-- Moving zeros out leaves nothing behind. -/
theorem shiftRight_mul_two_pow (m k : Nat) :
    (⟨m * 2 ^ k, false, false⟩ : ExtendedMantissa) >>> k = ⟨m, false, false⟩ := by
  induction k generalizing m with
  | zero => simp [HShiftRight.hShiftRight, Nat.repeat]
  | succ k ih =>
    have hk : (⟨m * 2 ^ (k + 1), false, false⟩ : ExtendedMantissa) >>> k =
        ⟨m * 2, false, false⟩ := by
      rw [← ih (m * 2), Nat.pow_succ']
      ring_nf
    show ((_ : ExtendedMantissa) >>> k).shiftRightOne = _
    rw [hk]
    simp [ExtendedMantissa.shiftRightOne]

theorem log2_mul_two_pow (hm : m.log2 = 52) (k : Nat) : (m * 2 ^ k).log2 = 52 + k := by
  have hm0 : m ≠ 0 := by
    rintro rfl
    simp at hm
  obtain ⟨hle, hlt⟩ := (Nat.log2_eq_iff hm0).mp hm
  refine (Nat.log2_eq_iff (Nat.mul_ne_zero hm0 (Nat.two_pow_pos k).ne')).mpr ⟨?_, ?_⟩
  · rw [Nat.pow_add]
    exact Nat.mul_le_mul_right _ hle
  · rw [Nat.add_right_comm, Nat.pow_add]
    exact Nat.mul_lt_mul_of_pos_right hlt (Nat.two_pow_pos k)

/-- The exponent at which 53 digits are left. -/
theorem targetExponent_eq (t : Int) :
    Format.targetExponent .binary64 t = max (t - 53) (-1074) := rfl

/-- The 53 leading digits are kept, and zeros behind them are moved out. -/
theorem shiftToTargetExponent_normal (hm : m.log2 = 52) (he : -1074 ≤ e + k) :
    shiftToTargetExponent .binary64 (m * 2 ^ k) e .exact = (⟨m, false, false⟩, e + k) := by
  have htarget : Format.targetExponent .binary64 (totalExponent (m * 2 ^ k) e) = e + k := by
    rw [targetExponent_eq, totalExponent, log2_mul_two_pow hm]
    omega
  have hshift : (e + (k : Int) - e).toNat = k := by omega
  rw [shiftToTargetExponent, htarget, shiftToExponent, hshift]
  exact congrArg (·, e + (k : Int)) (shiftRight_mul_two_pow m k)

theorem roundWithAccuracy_normal (hm : m.log2 = 52) (he : -1074 ≤ e + k) (hpos : 0 < m) :
    roundWithAccuracy .binary64 s (m * 2 ^ k) e .exact = .finite s m (e + k) hpos := by
  have hrounded : shiftToTargetExponent .binary64 m (e + k) .exact =
      (⟨m, false, false⟩, e + k) := by
    simpa using shiftToTargetExponent_normal (k := 0) hm (by simpa using he)
  rw [roundWithAccuracy, shiftToTargetExponent_normal hm he]
  -- there is nothing to round, and what is rounded is shifted again
  show (if h : (shiftToTargetExponent .binary64 m (e + k) .exact).1.mantissa = 0 then .zero s
    else UnpackedFloat.finite s (shiftToTargetExponent .binary64 m (e + k) .exact).1.mantissa
      (shiftToTargetExponent .binary64 m (e + k) .exact).2 (Nat.pos_of_ne_zero h)) = _
  rw [hrounded]
  exact dif_neg hpos.ne'

theorem roundWithAccuracy_self (hm : m.log2 = 52) (he : -1074 ≤ e) (hpos : 0 < m) :
    roundWithAccuracy .binary64 s m e .exact = .finite s m e hpos := by
  have hrounded := roundWithAccuracy_normal (s := s) (e := e) (k := 0) hm (by omega) hpos
  rwa [Nat.pow_zero, Nat.mul_one, Int.natCast_zero, Int.add_zero] at hrounded

/-- How a finite double is stored. -/
theorem pack_finite (hpos : 0 < m) : UnpackedFloat.pack .binary64 (.finite .positive m e hpos) =
    if 2048 ≤ (e + 1023 + 52).toNat + 1 then packedInfinity .binary64 .positive
    else if m.log2 + 1 = 53 then
      packComponents .binary64 .positive (BitVec.ofNat 11 (e + 1023 + 52).toNat) (BitVec.ofNat 52 m)
    else packComponents .binary64 .positive 0#11 (BitVec.ofNat 52 m) := rfl

theorem finite_eq {s s' : Sign} {m m' : Nat} {e e' : Int} {hm : 0 < m} {hm' : 0 < m'}
    (hs : s = s') (h : m = m') (he : e = e') :
    UnpackedFloat.finite s m e hm = .finite s' m' e' hm' := by
  subst hs h he
  rfl

/-- What is stored with an exponent that is neither the least nor the greatest one. -/
theorem unpack_packComponents {exponent : BitVec 11} {mantissa : BitVec 52}
    (hzero : exponent ≠ 0#11) (hfinite : exponent ≠ -1#11) (hpos : 0 < m)
    (hm : (1#1 ++ mantissa).toNat = m) (he : (exponent.toNat : Int) - 1075 = e) :
    UnpackedFloat.unpack .binary64 (packComponents .binary64 .positive exponent mantissa) =
      .finite .positive m e hpos := by
  have hexponent : @unpackExponent .binary64 (packComponents .binary64 .positive exponent mantissa) =
      exponent := unpackExponent_packComponents
  have hmantissa : @unpackMantissa .binary64 (packComponents .binary64 .positive exponent mantissa) =
      mantissa := unpackMantissa_packComponents
  rw [← hexponent] at hfinite hzero
  unfold UnpackedFloat.unpack
  refine (if_neg hfinite).trans ((if_neg hzero).trans (finite_eq ?_ ?_ ?_))
  · rw [unpackSign_of_lt toNat_packComponents_lt]
    rfl
  · rw [hmantissa, hm]
  · rw [hexponent, ← he]
    rfl

/-- A double of 53 digits is stored as it is. -/
theorem unpack_pack_normal (hm : m.log2 = 52) (he : -1074 ≤ e) (he' : e ≤ 971) (hpos : 0 < m) :
    (Float.Model.pack (.finite .positive m e hpos)).unpack = .finite .positive m e hpos := by
  obtain ⟨hle, hlt⟩ := (Nat.log2_eq_iff hpos.ne').mp hm
  have hexponent : (BitVec.ofNat 11 (e + 1023 + 52).toNat).toNat = (e + 1075).toNat := by
    rw [BitVec.toNat_ofNat]
    omega
  have hzero : BitVec.ofNat 11 (e + 1023 + 52).toNat ≠ 0#11 := fun h => by
    rw [h, BitVec.toNat_zero] at hexponent
    omega
  have hfinite : BitVec.ofNat 11 (e + 1023 + 52).toNat ≠ -1#11 := fun h => by
    rw [h, show (-1#11 : BitVec 11).toNat = 2047 from rfl] at hexponent
    omega
  have hmantissa : (1#1 ++ BitVec.ofNat 52 m).toNat = m := by
    rw [BitVec.toNat_append, ← Nat.shiftLeft_add_eq_or_of_lt (BitVec.isLt _), BitVec.toNat_ofNat]
    show 2 ^ 52 + m % 2 ^ 52 = m
    omega
  show UnpackedFloat.unpack .binary64 (UnpackedFloat.pack .binary64 _) = _
  rw [pack_finite, if_neg (by omega), if_pos (by omega)]
  exact unpack_packComponents hzero hfinite hpos hmantissa (by omega)

/-! ## Natural numbers and their halves -/

/-- The digits of a number below `2 ^ 53`, followed by zeros. -/
theorem log2_normalized (hn : 0 < n) (h : n < 2 ^ 53) : (n * 2 ^ (52 - n.log2)).log2 = 52 := by
  obtain ⟨hle, hlt⟩ := (Nat.log2_eq_iff hn.ne').mp rfl
  have hlog : n.log2 < 53 := (Nat.log2_lt hn.ne').mpr h
  have hpos := Nat.two_pow_pos (52 - n.log2)
  refine (Nat.log2_eq_iff (Nat.mul_pos hn hpos).ne').mpr ⟨?_, ?_⟩
  · calc 2 ^ 52 = 2 ^ n.log2 * 2 ^ (52 - n.log2) := by rw [← Nat.pow_add]; congr 1; omega
      _ ≤ n * 2 ^ (52 - n.log2) := Nat.mul_le_mul_right _ hle
  · calc n * 2 ^ (52 - n.log2) < 2 ^ (n.log2 + 1) * 2 ^ (52 - n.log2) :=
          Nat.mul_lt_mul_of_pos_right hlt hpos
      _ = 2 ^ (52 + 1) := by rw [← Nat.pow_add]; congr 1; omega

/-- A double that stands for a number in 53 digits. -/
structure Digits (u : UnpackedFloat) (m : Nat) (e : Int) : Prop where
  log2 : m.log2 = 52
  eq : ∃ hpos, u = .finite .positive m e hpos

theorem Digits.valueOf {u : UnpackedFloat} (h : Digits u m e) :
    Double.valueOf u = some ((m : ℚ) * 2 ^ e) := by
  obtain ⟨hpos, rfl⟩ := h.eq
  rfl

theorem Digits.unpack_pack {u : UnpackedFloat} (h : Digits u m e) (he : -1074 ≤ e)
    (he' : e ≤ 971) : Digits (Float.Model.pack u).unpack m e := by
  obtain ⟨hpos, rfl⟩ := h.eq
  exact ⟨h.log2, hpos, unpack_pack_normal h.log2 he he' hpos⟩

/-- A product with a power of two keeps the digits. -/
theorem Digits.mul {u v : UnpackedFloat} (h : Digits u m e) {d : Int} (hv : Digits v (2 ^ 52) d)
    (he : -1074 ≤ e + d + 52) : Digits (mul .binary64 u v) m (e + d + 52) := by
  obtain ⟨hpos, rfl⟩ := h.eq
  obtain ⟨hpos', rfl⟩ := hv.eq
  exact ⟨h.log2, hpos, roundWithAccuracy_normal h.log2 he hpos⟩

theorem digits_ofNat (hn : 0 < n) (h : n < 2 ^ 53) :
    Digits (ofNat .binary64 n) (n * 2 ^ (52 - n.log2)) (n.log2 - 52) := by
  have hlog : n.log2 < 53 := (Nat.log2_lt hn.ne').mpr h
  have hnormal := log2_normalized hn h
  have hpos : 0 < n * 2 ^ (52 - n.log2) := Nat.mul_pos hn (Nat.two_pow_pos _)
  have htarget : Format.targetExponent .binary64 (totalExponent n 0) = n.log2 - 52 := by
    rw [targetExponent_eq, totalExponent]
    omega
  have hshift : (0 - ((n.log2 : Int) - 52)).toNat = 52 - n.log2 := by omega
  have hexponent : (0 : Int) - ((52 - n.log2 : Nat) : Int) = n.log2 - 52 := by omega
  have hround : UnpackedFloat.round .binary64 .positive n 0 =
      roundWithAccuracy .binary64 .positive (n * 2 ^ (52 - n.log2)) (n.log2 - 52) .exact := by
    rw [UnpackedFloat.round, htarget, decreaseExponent, hshift, hexponent, Nat.shiftLeft_eq]
  have hcompare : compare (n : Int) 0 = .gt := Std.compare_eq_gt.mpr (by omega)
  refine ⟨hnormal, hpos, ?_⟩
  rw [UnpackedFloat.ofNat, UnpackedFloat.ofInt, UnpackedFloat.normalize, hcompare]
  exact hround.trans (roundWithAccuracy_self hnormal (by omega) hpos)

theorem digits_one : Digits (1.0 : Float).toModel.unpack (2 ^ 52) (-52) :=
  ⟨rfl, by decide, rfl⟩

theorem digits_half : Digits (0.5 : Float).toModel.unpack (2 ^ 52) (-53) :=
  ⟨rfl, by decide, rfl⟩

/-- Converting a number multiplies it by one. -/
theorem digits_float (hn : 0 < n) (h : n < 2 ^ 53) :
    Digits (Float.ofNat n).toModel.unpack (n * 2 ^ (52 - n.log2)) (n.log2 - 52) := by
  have hlog : n.log2 < 53 := (Nat.log2_lt hn.ne').mpr h
  have hword : n.toUInt64.toNat = n := by
    show n % 2 ^ 64 = n
    omega
  have hconvert : Float.ofNat n = n.toUInt64.toFloat * 1.0 := dif_pos ⟨h, Nat.zero_le _⟩
  have hinteger : Digits n.toUInt64.toFloat.toModel.unpack (n * 2 ^ (52 - n.log2))
      (n.log2 - 52) := by
    show Digits (Float.Model.pack (ofNat .binary64 n.toUInt64.toNat)).unpack _ _
    rw [hword]
    exact (digits_ofNat hn h).unpack_pack (by omega) (by omega)
  have hproduct := hinteger.mul digits_one (by omega)
  rw [hconvert]
  show Digits (Float.Model.pack (mul .binary64 n.toUInt64.toFloat.toModel.unpack
    (1.0 : Float).toModel.unpack)).unpack _ _
  simpa using hproduct.unpack_pack (by omega) (by omega)

/-- **Halving a natural number** below `2 ^ 53` is exact. -/
theorem value?_half (hn : 0 < n) (h : n < 2 ^ 53) : value? (Float.ofNat n * 0.5) =
    some ((n : ℚ) / 2) := by
  have hlog : n.log2 < 53 := (Nat.log2_lt hn.ne').mpr h
  have hproduct := (digits_float hn h).mul digits_half (by omega)
  have hpacked := hproduct.unpack_pack (by omega) (by omega)
  have hvalue : value? (Float.ofNat n * 0.5) = some _ := hpacked.valueOf
  rw [hvalue]
  congr 1
  have hexponent : (n.log2 - 52 + -53 + 52 : Int) = -((52 - n.log2 : Nat) : Int) - 1 := by omega
  rw [hexponent, zpow_sub₀ two_ne_zero, zpow_neg, zpow_natCast, zpow_one]
  push_cast
  field_simp

/-! ## Halves of numbers of any size -/

theorem Unsigned.mul {u : UnpackedFloat} (hu : Unsigned u) {hpos : 0 < m} :
    Unsigned (mul .binary64 u (.finite .positive m e hpos)) := by
  cases u with
  | notANumber => cases hu
  | infinity s => cases hu; rfl
  | zero s => cases hu; rfl
  | finite s _ _ _ => cases hu; exact unsigned_roundWithAccuracy

theorem Unsigned.mul_digits {u v : UnpackedFloat} (hu : Unsigned u) (hv : Digits v m e) :
    Unsigned (Float.Model.pack (UnpackedFloat.mul .binary64 u v)).unpack := by
  obtain ⟨hpos, rfl⟩ := hv.eq
  exact hu.mul.unpack_pack

theorem unsigned_float (n : Nat) : Unsigned (Float.ofNat n).toModel.unpack := by
  by_cases h : n < 2 ^ 53
  · have hconvert : Float.ofNat n = n.toUInt64.toFloat * 1.0 := dif_pos ⟨h, Nat.zero_le _⟩
    have hinteger : Unsigned n.toUInt64.toFloat.toModel.unpack := unsigned_ofNat.unpack_pack
    rw [hconvert]
    exact hinteger.mul_digits digits_one
  · have hconvert : Float.ofNat n = .ofModel (.ofScientific n 0) := dif_neg fun hn => h hn.1
    rw [hconvert]
    exact unsigned_ofScientific.unpack_pack

/-- No half of a natural number is missing. -/
theorem isNaN_half (n : Nat) : (Float.ofNat n * 0.5).isNaN = false := by
  have hproduct : Unsigned (UnpackedFloat.mul .binary64 (Float.ofNat n).toModel.unpack
      (0.5 : Float).toModel.unpack) := by
    obtain ⟨hpos, hhalf⟩ := digits_half.eq
    rw [hhalf]
    exact (unsigned_float n).mul
  exact hproduct.ofModel.1

end PanelCalc.Double
