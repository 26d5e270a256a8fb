import Mathlib.Algebra.Order.Field.Basic
import Mathlib.Algebra.Order.Field.Power
import Mathlib.Data.Rat.Cast.Order
import TenantSchema.Number.Binary64

/-!
# Rounding through single precision

A magnitude that a binary format represents is its own rounding, and every single-precision
magnitude is a double. So rounding through single precision twice is rounding once.
-/

namespace TenantSchema.Number

/-! ### Units -/

theorem cast_twoPow (n : Nat) : (twoPow n : ℚ) = 2 ^ n := by
  show ((2 ^ n : ℕ) : ℚ) = _
  push_cast
  rfl

theorem two_zpow_pos (e : Int) : (0 : ℚ) < 2 ^ e := zpow_pos (by norm_num) e

theorem two_zpow_lt {a b : Int} : (2 : ℚ) ^ a < 2 ^ b ↔ a < b :=
  zpow_lt_zpow_iff_right₀ (by norm_num)

theorem two_zpow_add (a b : Int) : (2 : ℚ) ^ (a + b) = 2 ^ a * 2 ^ b :=
  zpow_add₀ (by norm_num) a b

/-- A magnitude lies between the powers of two that its logarithm names. -/
theorem two_zpow_log2_le {n : Nat} (h : 0 < n) :
    (2 : ℚ) ^ (n.log2 : Int) ≤ n ∧ (n : ℚ) < 2 ^ ((n.log2 : Int) + 1) := by
  have hle : 2 ^ n.log2 ≤ n := Nat.log2_self_le (by omega)
  have hlt : n < 2 ^ (n.log2 + 1) := Nat.lt_log2_self
  constructor
  · rw [zpow_natCast]
    exact_mod_cast hle
  · rw [show ((n.log2 : Int) + 1) = ((n.log2 + 1 : Nat) : Int) by push_cast; rfl, zpow_natCast]
    exact_mod_cast hlt

theorem inUnits_pos (num : Nat) {den : Nat} (hden : 0 < den) (e : Int) :
    0 < (inUnits num den e).2 := by
  unfold inUnits
  split
  · exact Nat.mul_pos hden (twoPow_pos _)
  · exact hden

theorem inUnits_div (num den : Nat) (e : Int) :
    ((inUnits num den e).1 : ℚ) / (inUnits num den e).2 = num / den / 2 ^ e := by
  unfold inUnits
  split
  · next h =>
    obtain ⟨k, rfl⟩ := Int.eq_ofNat_of_zero_le h
    simp only [Int.toNat_natCast, Nat.cast_mul, cast_twoPow, zpow_natCast]
    rw [div_div]
  · next h =>
    obtain ⟨k, hk⟩ := Int.eq_ofNat_of_zero_le (show 0 ≤ -e by omega)
    obtain rfl : e = -(k : Int) := by omega
    simp only [Int.neg_neg, Int.toNat_natCast, Nat.cast_mul, cast_twoPow, zpow_neg, zpow_natCast]
    rw [div_inv_eq_mul, div_mul_eq_mul_div]

/-- A magnitude is below so many units as soon as its whole units are. -/
theorem inUnits_div_lt (num : Nat) {den : Nat} (hden : 0 < den) (e : Int) {count : Nat} :
    (inUnits num den e).1 / (inUnits num den e).2 < count ↔ (num / den : ℚ) < count * 2 ^ e := by
  have hpos := inUnits_pos num hden e
  have hpos' : (0 : ℚ) < (inUnits num den e).2 := by exact_mod_cast hpos
  have hcast : (inUnits num den e).1 / (inUnits num den e).2 < count ↔
      ((inUnits num den e).1 : ℚ) < count * (inUnits num den e).2 := by
    rw [Nat.div_lt_iff_lt_mul hpos]
    exact_mod_cast Iff.rfl
  rw [hcast, ← div_lt_iff₀ hpos', inUnits_div, div_lt_iff₀ (two_zpow_pos e)]

/-! ### What a format represents -/

namespace BinaryFormat

variable (f : BinaryFormat)

/-- A significand and the exponent of its unit, as the format keeps them. -/
structure Fits (m : Nat) (e : Int) : Prop where
  lt : m < 2 * twoPow (f.precision - 1)
  least : f.minExponent ≤ e
  normal : twoPow (f.precision - 1) ≤ m ∨ e = f.minExponent

/-- The code of a significand and an exponent. -/
def codeOf (m : Nat) (e : Int) : Nat := (e - f.minExponent).toNat * twoPow (f.precision - 1) + m

theorem fits_code (code : Nat) : f.Fits (f.significand code) (f.exponent code) := by
  have hunit := twoPow_pos (f.precision - 1)
  have hmod := Nat.mod_lt code hunit
  unfold significand exponent
  dsimp only
  by_cases hcode : code < twoPow (f.precision - 1)
  · rw [if_pos hcode, Nat.div_eq_of_lt hcode]
    exact ⟨by omega, by omega, .inr (by omega)⟩
  · rw [if_neg hcode]
    exact ⟨by omega, by omega, .inl (by omega)⟩

theorem codeOf_code (code : Nat) : f.codeOf (f.significand code) (f.exponent code) = code := by
  have hunit := twoPow_pos (f.precision - 1)
  unfold codeOf significand exponent
  dsimp only
  rw [add_sub_cancel_left, Int.toNat_natCast]
  by_cases hcode : code < twoPow (f.precision - 1)
  · rw [if_pos hcode, Nat.div_eq_of_lt hcode, Nat.zero_sub, Nat.zero_mul, Nat.zero_add]
  · have hq : 0 < code / twoPow (f.precision - 1) := Nat.div_pos (by omega) hunit
    have hdiv := Nat.div_add_mod' code (twoPow (f.precision - 1))
    rw [if_neg hcode, Nat.sub_one_mul]
    have hle := Nat.le_mul_of_pos_left (twoPow (f.precision - 1)) hq
    omega

/-- The least significand with all bits of the format. -/
theorem cast_unit (hp : 0 < f.precision) :
    (twoPow (f.precision - 1) : ℚ) = 2 ^ ((f.precision : Int) - 1) := by
  rw [cast_twoPow, ← zpow_natCast, Nat.cast_sub hp, Nat.cast_one]

/-- No significand reaches this number. -/
theorem cast_bits (hp : 0 < f.precision) :
    ((2 * twoPow (f.precision - 1) : Nat) : ℚ) = 2 ^ (f.precision : Int) := by
  rw [Nat.cast_mul, f.cast_unit hp, Nat.cast_two, ← zpow_one_add₀ (by norm_num)]
  congr 1
  omega

variable {f} {m : Nat} {e : Int}

theorem codeOf_div (m : Nat) (e : Int) :
    f.codeOf m e / twoPow (f.precision - 1) =
      (e - f.minExponent).toNat + m / twoPow (f.precision - 1) := by
  rw [codeOf, Nat.add_comm, Nat.add_mul_div_right _ _ (twoPow_pos _), Nat.add_comm]

theorem Fits.significand_codeOf (h : f.Fits m e) : f.significand (f.codeOf m e) = m := by
  have hunit := twoPow_pos (f.precision - 1)
  have hlt := h.lt
  unfold significand
  dsimp only
  rcases Nat.lt_or_ge m (twoPow (f.precision - 1)) with hm | hm
  · obtain rfl : e = f.minExponent := h.normal.resolve_left (by omega)
    have hcode : f.codeOf m f.minExponent = m := by simp [codeOf]
    rw [hcode, if_pos hm]
  · have hle : twoPow (f.precision - 1) ≤ f.codeOf m e := Nat.le_trans hm (Nat.le_add_left ..)
    have hmod : m % twoPow (f.precision - 1) = m - twoPow (f.precision - 1) := by
      rw [Nat.mod_eq_sub_mod hm, Nat.mod_eq_of_lt (by omega)]
    rw [if_neg (by omega), codeOf, Nat.mul_add_mod_self_right, hmod]
    omega

theorem Fits.exponent_codeOf (h : f.Fits m e) : f.exponent (f.codeOf m e) = e := by
  have hunit := twoPow_pos (f.precision - 1)
  have hlt := h.lt
  have hleast := h.least
  unfold exponent
  rw [codeOf_div]
  rcases Nat.lt_or_ge m (twoPow (f.precision - 1)) with hm | hm
  · obtain rfl : e = f.minExponent := h.normal.resolve_left (by omega)
    rw [Nat.div_eq_of_lt hm]
    omega
  · have hone : m / twoPow (f.precision - 1) = 1 := by
      rw [Nat.div_eq_iff hunit]
      omega
    rw [hone]
    omega

/-! ### A representable magnitude is its own rounding -/

variable {num den : Nat}

/-- The exponent that gives a magnitude a full significand. -/
def fullExponent (f : BinaryFormat) (num den : Nat) : Int :=
  let e : Int := (num.log2 : Int) - den.log2 - f.precision + 1
  let (n, d) := inUnits num den e
  if n / d < twoPow (f.precision - 1) then e - 1 else e

theorem unitExponent_eq_max (num den : Nat) :
    f.unitExponent num den = max (f.fullExponent num den) f.minExponent := rfl

/-- In these units a magnitude has as many bits as the format. -/
theorem fullExponent_spec (hp : 0 < f.precision) (hnum : 0 < num) (hden : 0 < den) :
    (2 : ℚ) ^ (f.fullExponent num den + (f.precision - 1)) ≤ num / den ∧
      (num / den : ℚ) < 2 ^ (f.fullExponent num den + f.precision) := by
  obtain ⟨hnl, hnu⟩ := two_zpow_log2_le hnum
  obtain ⟨hdl, hdu⟩ := two_zpow_log2_le hden
  have hd : (0 : ℚ) < den := by exact_mod_cast hden
  set e : Int := (num.log2 : Int) - den.log2 - f.precision + 1 with he
  -- the logarithms give the magnitude up to a factor of two on either side
  have hupper : (num / den : ℚ) < 2 ^ (e + f.precision) := by
    rw [div_lt_iff₀ hd]
    calc (num : ℚ) < 2 ^ ((num.log2 : Int) + 1) := hnu
      _ = 2 ^ (e + f.precision) * 2 ^ (den.log2 : Int) := by rw [← two_zpow_add]; congr 1; omega
      _ ≤ 2 ^ (e + f.precision) * den := by
        exact mul_le_mul_of_nonneg_left hdl (two_zpow_pos _).le
  have hlower : (2 : ℚ) ^ (e - 1 + (f.precision - 1)) ≤ num / den := by
    rw [le_div_iff₀ hd]
    calc (2 : ℚ) ^ (e - 1 + (f.precision - 1)) * den
        ≤ 2 ^ (e - 1 + (f.precision - 1)) * 2 ^ ((den.log2 : Int) + 1) :=
          mul_le_mul_of_nonneg_left hdu.le (two_zpow_pos _).le
      _ = 2 ^ (num.log2 : Int) := by rw [← two_zpow_add]; congr 1; omega
      _ ≤ num := hnl
  -- and the quotient tells which of the two it is
  have hquot : (inUnits num den e).1 / (inUnits num den e).2 < twoPow (f.precision - 1) ↔
      (num / den : ℚ) < 2 ^ (e + (f.precision - 1)) := by
    rw [inUnits_div_lt num hden, f.cast_unit hp, ← two_zpow_add, Int.add_comm e]
  unfold fullExponent
  dsimp only
  rw [← he]
  split
  · next hlt =>
    refine ⟨hlower, ?_⟩
    rw [show e - 1 + (f.precision : Int) = e + (f.precision - 1) by omega]
    exact hquot.mp hlt
  · next hge => exact ⟨not_lt.mp (mt hquot.mpr hge), hupper⟩

theorem Fits.unitExponent_eq (hp : 0 < f.precision) (h : f.Fits m e) (hnum : 0 < num)
    (hden : 0 < den) (hv : (num / den : ℚ) = m * 2 ^ e) : f.unitExponent num den = e := by
  obtain ⟨hlow, hhigh⟩ := fullExponent_spec hp hnum hden
  set g := f.fullExponent num den
  have hg : f.unitExponent num den = max g f.minExponent := unitExponent_eq_max num den
  have hleast := h.least
  have hupper : (num / den : ℚ) < 2 ^ (e + f.precision) := by
    have hlt : (m : ℚ) < 2 ^ (f.precision : Int) := by
      rw [← f.cast_bits hp]
      exact_mod_cast h.lt
    rw [hv, Int.add_comm, two_zpow_add]
    exact mul_lt_mul_of_pos_right hlt (two_zpow_pos e)
  have hle : g ≤ e := by
    have := two_zpow_lt.mp (lt_of_le_of_lt hlow hupper)
    omega
  rcases h.normal with hnormal | hmin
  · have hlower : (2 : ℚ) ^ (e + (f.precision - 1)) ≤ num / den := by
      have hge : (2 : ℚ) ^ ((f.precision : Int) - 1) ≤ m := by
        rw [← f.cast_unit hp]
        exact_mod_cast hnormal
      rw [hv, Int.add_comm, two_zpow_add]
      exact mul_le_mul_of_nonneg_right hge (two_zpow_pos e).le
    have := two_zpow_lt.mp (lt_of_le_of_lt hlower hhigh)
    omega
  · omega

theorem divNearestEven_mul (m : Nat) {d : Nat} (hd : 0 < d) : divNearestEven (m * d) d = m := by
  unfold divNearestEven
  dsimp only
  rw [Nat.mul_mod_left, Nat.mul_div_cancel m hd, if_neg (by omega)]

theorem Fits.nearest_eq (hp : 0 < f.precision) (h : f.Fits m e) (hden : 0 < den)
    (hv : (num / den : ℚ) = m * 2 ^ e) : f.nearest num den = min (f.codeOf m e) f.infinity := by
  rcases Nat.eq_zero_or_pos num with rfl | hnum
  · have hm : m = 0 := by
      rw [Nat.cast_zero, zero_div, eq_comm, mul_eq_zero] at hv
      exact_mod_cast hv.resolve_right (two_zpow_pos e).ne'
    subst hm
    obtain rfl : e = f.minExponent :=
      h.normal.resolve_left (Nat.not_le.mpr (twoPow_pos _))
    simp [nearest, codeOf]
  · have hunits : (inUnits num den e).1 = m * (inUnits num den e).2 := by
      have hpos := inUnits_pos num hden e
      have hpos' : ((inUnits num den e).2 : ℚ) ≠ 0 := by exact_mod_cast hpos.ne'
      have hdiv := inUnits_div num den e
      rw [hv, mul_div_cancel_right₀ _ (two_zpow_pos e).ne', div_eq_iff hpos'] at hdiv
      exact_mod_cast hdiv
    unfold nearest
    rw [if_neg (by omega)]
    dsimp only
    rw [h.unitExponent_eq hp hnum hden hv, hunits,
      divNearestEven_mul m (inUnits_pos _ hden e)]
    rfl

/-- Rounding finds the code of a magnitude that has one. -/
theorem nearest_of_code (hp : 0 < f.precision) {code : Nat} (hcode : code < f.infinity)
    (hden : 0 < den) (hv : (num / den : ℚ) = f.significand code * 2 ^ f.exponent code) :
    f.nearest num den = code := by
  rw [(f.fits_code code).nearest_eq hp hden hv, f.codeOf_code]
  omega

end BinaryFormat

/-! ### Doubles by sign and code -/

namespace Binary64

theorem scaledRat_eq (m e : Int) : scaledRat m e = m * (2 : ℚ) ^ e := by
  unfold scaledRat
  split
  · next h =>
    obtain ⟨k, rfl⟩ := Int.eq_ofNat_of_zero_le h
    rw [Int.toNat_natCast, zpow_natCast, ← cast_twoPow]
    push_cast
    rfl
  · next h =>
    obtain ⟨k, hk⟩ := Int.eq_ofNat_of_zero_le (show 0 ≤ -e by omega)
    obtain rfl : e = -(k : Int) := by omega
    rw [neg_neg, Int.toNat_natCast, Rat.mkRat_eq_div, zpow_neg, zpow_natCast, ← cast_twoPow,
      div_eq_mul_inv]

theorem natAbs_num_div_den (r : ℚ) : (r.num.natAbs / r.den : ℚ) = |r| := by
  conv_rhs => rw [← Rat.num_div_den r]
  rw [abs_div, Nat.abs_cast, Nat.cast_natAbs, Int.cast_abs]

/-- The magnitude of a number is what its code stands for. -/
theorem abs_toRat (x : Binary64) :
    |x.toRat| = double.significand x.code * 2 ^ double.exponent x.code := by
  rw [toRat, scaledRat_eq, abs_mul, abs_of_pos (two_zpow_pos _)]
  congr 1
  cases x.isNegative <;> simp

theorem magnitude_toRat (x : Binary64) :
    (x.toRat.num.natAbs / x.toRat.den : ℚ) = double.significand x.code * 2 ^ double.exponent x.code := by
  rw [natAbs_num_div_den, abs_toRat]

variable {code : Nat} (h : code < signBit) (negative : Bool)

include h

theorem toNat_bits_ofCode :
    (ofCode negative code).bits.toNat = code + if negative then signBit else 0 := by
  unfold signBit at h
  show (UInt64.ofNat _).toNat = _
  rw [UInt64.toNat_ofNat', Nat.mod_eq_of_lt]
  unfold signBit
  split <;> omega

theorem code_ofCode : (ofCode negative code).code = code := by
  unfold Binary64.code
  rw [toNat_bits_ofCode h]
  split
  · rw [Nat.add_mod_right, Nat.mod_eq_of_lt h]
  · rw [Nat.add_zero, Nat.mod_eq_of_lt h]

theorem isNegative_ofCode : (ofCode negative code).isNegative = negative := by
  unfold isNegative
  rw [toNat_bits_ofCode h]
  cases negative with
  | true => exact decide_eq_true (Nat.le_add_left ..)
  | false => exact decide_eq_false (Nat.not_le.mpr h)

end Binary64

/-! ### Single-precision magnitudes are doubles -/

theorem exists_double {m : Nat} {e : Int} (hm : m < 2 ^ 24) (hlow : -149 ≤ e) (hhigh : e ≤ 104) :
    ∃ code < double.infinity,
      (double.significand code : ℚ) * 2 ^ double.exponent code = m * 2 ^ e := by
  rcases Nat.eq_zero_or_pos m with rfl | hpos
  · exact ⟨0, by decide, by simp [BinaryFormat.significand, twoPow]⟩
  · -- shift the significand to the full 53 bits
    have hlog : m.log2 < 24 := (Nat.log2_lt (by omega)).mpr hm
    have hle : 2 ^ m.log2 ≤ m := Nat.log2_self_le (by omega)
    have hlt : m < 2 ^ (m.log2 + 1) := Nat.lt_log2_self
    set k := 52 - m.log2 with hk
    have hunit : twoPow (double.precision - 1) = 2 ^ m.log2 * 2 ^ k := by
      rw [← Nat.pow_add, hk, show m.log2 + (52 - m.log2) = 52 by omega]
      rfl
    have hkpos : 0 < 2 ^ k := Nat.two_pow_pos k
    have hfits : double.Fits (m * 2 ^ k) (e - k) := by
      refine ⟨?_, ?_, .inl ?_⟩
      · rw [hunit, ← Nat.mul_assoc, ← Nat.pow_succ']
        exact Nat.mul_lt_mul_of_pos_right hlt hkpos
      · show -1074 ≤ e - k
        omega
      · rw [hunit]
        exact Nat.mul_le_mul_right _ hle
    refine ⟨double.codeOf (m * 2 ^ k) (e - k), ?_, ?_⟩
    · have hlt := hfits.lt
      have hexp : (e - k - double.minExponent).toNat ≤ 1178 := by
        show (e - k - -1074).toNat ≤ 1178
        omega
      calc double.codeOf (m * 2 ^ k) (e - k)
          < 1178 * twoPow (double.precision - 1) + 2 * twoPow (double.precision - 1) :=
            Nat.add_lt_add_of_le_of_lt (Nat.mul_le_mul_right _ hexp) hlt
        _ ≤ double.infinity := by decide
    · rw [hfits.significand_codeOf, hfits.exponent_codeOf, Nat.cast_mul, Nat.cast_pow,
        Nat.cast_two, ← zpow_natCast, mul_assoc, ← two_zpow_add, add_sub_cancel]

/-- What a finite single-precision code stands for, as a double. -/
theorem widenSingle_finite (negative : Bool) {code : Nat} (h : code < single.infinity) :
    (widenSingle negative code).isFinite = true ∧
      (widenSingle negative code).isNegative = negative ∧
      ((widenSingle negative code).toRat.num.natAbs / (widenSingle negative code).toRat.den : ℚ) =
        single.significand code * 2 ^ single.exponent code := by
  have hfits := single.fits_code code
  have hdiv : code / twoPow (single.precision - 1) < 255 := by
    rw [Nat.div_lt_iff_lt_mul (twoPow_pos _)]
    exact h
  obtain ⟨wide, hwide, hvalue⟩ := exists_double (m := single.significand code)
    (e := single.exponent code) hfits.lt hfits.least (by
      unfold BinaryFormat.exponent
      show -149 + ((code / twoPow (single.precision - 1) - 1 : Nat) : Int) ≤ 104
      omega)
  have hsign : wide < Binary64.signBit := Nat.lt_trans hwide (by decide)
  have hcode : widenSingle negative code = .ofCode negative wide := by
    unfold widenSingle
    rw [if_neg (by omega), if_neg (by omega)]
    dsimp only
    unfold Binary64.ofRatio
    congr 1
    split
    · next hexp =>
      obtain ⟨k, hk⟩ := Int.eq_ofNat_of_zero_le hexp
      refine BinaryFormat.nearest_of_code (by decide) hwide Nat.one_pos ?_
      rw [hvalue, hk, Int.toNat_natCast, Nat.cast_mul, cast_twoPow, zpow_natCast, Nat.cast_one,
        div_one]
    · next hexp =>
      obtain ⟨k, hk⟩ := Int.eq_ofNat_of_zero_le (show 0 ≤ -single.exponent code by omega)
      refine BinaryFormat.nearest_of_code (by decide) hwide (twoPow_pos _) ?_
      rw [hvalue, hk, Int.toNat_natCast, cast_twoPow, ← neg_neg (single.exponent code), hk,
        zpow_neg, zpow_natCast, div_eq_mul_inv]
  rw [hcode]
  refine ⟨?_, Binary64.isNegative_ofCode hsign negative, ?_⟩
  · unfold Binary64.isFinite
    rw [Binary64.code_ofCode hsign]
    exact decide_eq_true hwide
  · rw [Binary64.magnitude_toRat, Binary64.code_ofCode hsign, hvalue]

theorem widenSingle_infinity (negative : Bool) :
    (widenSingle negative single.infinity).isFinite = false := by
  cases negative <;> decide

/-- Rounding through single precision gives a number that it leaves alone. -/
theorem Binary64.toSingle_toSingle (x : Binary64) : x.toSingle.toSingle = x.toSingle := by
  by_cases hx : x.isFinite = true
  · set code := single.nearest x.toRat.num.natAbs x.toRat.den with hcode
    have hround : x.toSingle = widenSingle x.isNegative code := if_pos hx
    have hle : code ≤ single.infinity := by
      rw [hcode]
      unfold BinaryFormat.nearest
      split
      · exact Nat.zero_le _
      · exact Nat.min_le_right _ _
    rw [hround]
    rcases Nat.lt_or_eq_of_le hle with hlt | heq
    · obtain ⟨hfinite, hsign, hvalue⟩ := widenSingle_finite x.isNegative hlt
      unfold toSingle
      rw [if_pos hfinite, hsign,
        BinaryFormat.nearest_of_code (by decide) hlt (Rat.den_pos _) hvalue]
    · rw [heq]
      exact if_neg (by simp [widenSingle_infinity])
  · have hround : x.toSingle = x := if_neg hx
    rw [hround, hround]

end TenantSchema.Number
