import PanelCalc.Double.Parts

/-! # Doubles that are not negative

A decimal without a sign is read as a double that is neither negative nor
missing. Among those doubles only one is infinite. Both facts are taken from the
logical model of doubles: packing keeps a positive sign, and rounding and
dividing keep it too. -/
namespace PanelCalc.Double

open Float.Model (UnpackedFloat Format)
open Float.Model.UnpackedFloat

/-- Neither missing nor marked as negative. -/
def Unsigned : UnpackedFloat → Prop
  | .notANumber => False
  | .infinity s | .zero s | .finite s _ _ _ => s = .positive

variable {u w : UnpackedFloat} {x : Float}

theorem unsigned_dite {p : Prop} [Decidable p] {a : p → UnpackedFloat} {b : ¬ p → UnpackedFloat}
    (ha : ∀ h, Unsigned (a h)) (hb : ∀ h, Unsigned (b h)) : Unsigned (dite p a b) := by
  by_cases h : p
  · rw [dif_pos h]
    exact ha h
  · rw [dif_neg h]
    exact hb h

theorem unsigned_roundWithAccuracy {m : Nat} {e : Int} {a : Accuracy} :
    Unsigned (roundWithAccuracy .binary64 .positive m e a) := by
  unfold roundWithAccuracy
  exact unsigned_dite (fun _ => rfl) fun _ => rfl

theorem Unsigned.div (hu : Unsigned u) {m : Nat} {e : Int} {hm : 0 < m} :
    Unsigned (div .binary64 u (.finite .positive m e hm)) := by
  cases u with
  | notANumber => cases hu
  | infinity s => cases hu; rfl
  | zero s => cases hu; rfl
  | finite s _ _ _ => cases hu; exact unsigned_roundWithAccuracy

/-- The sign is the highest bit. -/
theorem toNat_packComponents_lt {e : BitVec 11} {m : BitVec 52} :
    (packComponents .binary64 .positive e m).toNat < Nat.pow 2 63 := by
  have hz : (Sign.positive.toBitVec ++ e).toNat = e.toNat := by
    rw [BitVec.toNat_append]
    simp [Sign.toBitVec]
  have hl : e.toNat <<< 52 < 2 ^ 63 := by
    have := e.isLt
    rw [Nat.shiftLeft_eq]
    omega
  have ht : (packComponents .binary64 .positive e m).toNat = e.toNat <<< 52 ||| m.toNat := by
    rw [← hz]
    exact BitVec.toNat_append ..
  rw [ht]
  exact Nat.or_lt_two_pow hl (Nat.lt_trans m.isLt (by decide))

theorem unpackSign_of_lt {b : BitVec 64} (h : b.toNat < Nat.pow 2 63) :
    @unpackSign .binary64 b = 0#1 := by
  have hb : b.toNat >>> 63 = 0 := by
    rw [Nat.shiftRight_eq_div_pow]
    exact Nat.div_eq_of_lt h
  have he : (BitVec.extractLsb 63 63 b).toNat = 0 := by
    rw [BitVec.extractLsb_toNat, hb]
  exact BitVec.eq_of_toNat_eq he

/-- Packing keeps the sign, and makes nothing missing. -/
theorem Unsigned.pack (hu : Unsigned u) : ∃ e m,
    pack .binary64 u = packComponents .binary64 .positive e m ∧ (e = (-1#11) → m = 0) := by
  fun_cases UnpackedFloat.pack .binary64 u with
  | case1 => cases hu
  | case2 s => cases hu; exact ⟨_, _, rfl, fun _ => rfl⟩
  | case3 s => cases hu; exact ⟨_, _, rfl, fun _ => rfl⟩
  | case4 s m e hm biased h => cases hu; exact ⟨_, _, rfl, fun _ => rfl⟩
  | case5 s m e hm actual biased h₁ h₂ =>
    cases hu
    refine ⟨_, _, rfl, fun he => ?_⟩
    have hlt : biased < 2047 := by
      simp at h₁
      omega
    have he := congrArg BitVec.toNat he
    simp at he
    omega
  | case6 s m e hm actual biased h₁ h₂ =>
    cases hu
    exact ⟨_, _, rfl, fun he => absurd he (by decide)⟩

theorem Unsigned.unpack_pack (hu : Unsigned u) : Unsigned (Float.Model.pack u).unpack := by
  obtain ⟨e, m, hp, hm⟩ := hu.pack
  have hu : (Float.Model.pack u).unpack =
      UnpackedFloat.unpack .binary64 (packComponents .binary64 .positive e m) := by
    rw [← hp]
    rfl
  rw [hu]
  have hsign : Sign.ofBitVec (@unpackSign .binary64 (packComponents .binary64 .positive e m)) =
      .positive := by
    rw [unpackSign_of_lt toNat_packComponents_lt]
    rfl
  unfold UnpackedFloat.unpack
  refine unsigned_dite (fun he => unsigned_dite (fun _ => hsign) fun hmantissa => ?_) fun _ =>
    unsigned_dite (fun _ => unsigned_dite (fun _ => hsign) fun _ => hsign) fun _ => hsign
  rw [unpackExponent_packComponents] at he
  rw [unpackMantissa_packComponents] at hmantissa
  exact absurd (hm he) hmantissa

/-- A double that is neither missing nor negative. -/
def IsUnsigned (x : Float) : Prop := x.isNaN = false ∧ isNegative x = false

theorem Unsigned.ofModel (hu : Unsigned u) : IsUnsigned (.ofModel (.pack u)) := by
  constructor
  · have := hu.unpack_pack
    show (Float.Model.pack u).unpack.isNaN = false
    cases h : (Float.Model.pack u).unpack <;> rw [h] at this
    · rfl
    · cases this
    all_goals rfl
  · obtain ⟨e, m, hp, -⟩ := hu.pack
    have hb : (UnpackedFloat.pack .binary64 u).toNat < Nat.pow 2 63 := by
      rw [hp]
      exact toNat_packComponents_lt
    have hs : (Float.ofModel (.pack u)).toBits >>> 63 = 0 := by
      rw [← UInt64.toNat_inj, UInt64.toNat_shiftRight]
      show (UnpackedFloat.pack .binary64 u).toNat >>> 63 = 0
      rw [Nat.shiftRight_eq_div_pow]
      exact Nat.div_eq_of_lt hb
    rw [isNegative, hs]
    rfl

theorem unsigned_ofNat {n : Nat} : Unsigned (ofNat .binary64 n) := by
  unfold ofNat ofInt UnpackedFloat.normalize
  split
  · rename_i h
    rw [Std.compare_eq_lt] at h
    omega
  · rfl
  · exact unsigned_roundWithAccuracy

theorem unsigned_ofScientific {m : Nat} {e : Int} : Unsigned (ofScientific .binary64 m e) := by
  unfold ofScientific
  refine unsigned_dite (fun _ => rfl) fun _ => unsigned_dite (fun _ => rfl) fun _ =>
    unsigned_dite (fun _ => rfl) fun _ => unsigned_dite (fun _ => ?_) fun _ => ?_
  · exact unsigned_roundWithAccuracy
  · exact unsigned_roundWithAccuracy

/-- Whether a double is finite and marked as positive. -/
def isPositive : UnpackedFloat → Bool
  | .finite .positive _ _ _ => true
  | _ => false

theorem unpack_powerOfTen : ∀ x ∈ Float.exactlyRepresentablePowersOfTen,
    ∃ m k h, x.toModel.unpack = .finite .positive m k h := by
  have hall : Float.exactlyRepresentablePowersOfTen.all (isPositive ·.toModel.unpack) = true := by
    decide +kernel
  intro x hx
  have hpos := Array.all_eq_true_iff_forall_mem.mp hall x hx
  cases hu : x.toModel.unpack with
  | finite s m k h =>
    rw [hu] at hpos
    cases s with
    | positive => exact ⟨m, k, h, rfl⟩
    | negative => cases hpos
  | _ =>
    rw [hu] at hpos
    cases hpos

theorem isUnsigned_ofScientific {m e : Nat} : IsUnsigned (Float.ofScientific m true e) := by
  unfold Float.ofScientific
  split
  · simp only [if_true]
    obtain ⟨k, l, hk, hp⟩ := unpack_powerOfTen _ (Array.getElem_mem _)
    have hd : Unsigned (div .binary64 (Float.Model.pack (ofNat .binary64 m.toUInt64.toNat)).unpack
        (.finite .positive k l hk)) :=
      unsigned_ofNat.unpack_pack.div
    rw [← hp] at hd
    exact hd.ofModel
  · exact unsigned_ofScientific.ofModel

/-- There is one infinite double that is not negative. -/
theorem eq_infinity (hi : x.isInf = true) (hx : isNegative x = false) : x = 1 / 0 := by
  obtain ⟨bits, hv⟩ := x
  have hi : (UnpackedFloat.unpack .binary64 bits.toBitVec).isInf = true := hi
  have hsign : bits.toNat < 2 ^ 63 := by
    have hx : (bits >>> 63 == 1) = false := hx
    have hs : ¬ bits >>> 63 = 1 := by simpa using hx
    rw [← UInt64.toNat_inj, UInt64.toNat_shiftRight] at hs
    have := bits.toNat_lt
    simp [Nat.shiftRight_eq_div_pow] at hs
    omega
  have hb : bits.toNat = 2047 * 2 ^ 52 := by
    unfold UnpackedFloat.unpack at hi
    dsimp only at hi
    by_cases he : @unpackExponent .binary64 bits.toBitVec = -1#_
    · rw [if_pos he] at hi
      by_cases hm : @unpackMantissa .binary64 bits.toBitVec = 0#_
      · have he := congrArg BitVec.toNat he
        have hm := congrArg BitVec.toNat hm
        simp [unpackExponent, unpackMantissa, Nat.shiftRight_eq_div_pow] at he hm
        omega
      · rw [if_neg hm] at hi
        cases hi
    · rw [if_neg he] at hi
      by_cases hz : @unpackExponent .binary64 bits.toBitVec = 0#_
      · rw [if_pos hz] at hi
        by_cases hm : @unpackMantissa .binary64 bits.toBitVec = 0#_
        · rw [dif_pos hm] at hi
          cases hi
        · rw [dif_neg hm] at hi
          cases hi
      · rw [if_neg hz] at hi
        cases hi
  have : bits = (1 / 0 : Float).toModel.toBits := UInt64.toNat_inj.mp (hb.trans (by decide))
  subst this
  rfl

end PanelCalc.Double
