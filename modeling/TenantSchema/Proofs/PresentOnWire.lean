import Mathlib.Tactic.NormNum
import TenantSchema.Proofs.Redecoding
import TenantSchema.Value.ToWire

/-!
# Values that are there on the wire

No wire number expresses what is not finite, no wire integer what lies beyond 64 bits, and an empty
reference has no members. None of this is a value that a type gives: it is there on the wire unless
it is null. For times and spans this is so because seconds are far from the limits of a double.
-/

namespace TenantSchema

open TenantSchema.Number TenantSchema.Calendar

/-! ### Magnitudes far from infinity

Rounding may carry a magnitude to the next power of two, and no further.
-/

namespace Number.BinaryFormat

variable {f : BinaryFormat} {num den : Nat} {limit : Int}

theorem divNearestEven_le (n d : Nat) : divNearestEven n d ≤ n / d + 1 := by
  unfold divNearestEven
  dsimp only
  split <;> omega

/-- In units of the last place, a magnitude has no more bits than the format. -/
theorem units_lt (hp : 0 < f.precision) (hnum : 0 < num) (hden : 0 < den) :
    (inUnits num den (f.unitExponent num den)).1 / (inUnits num den (f.unitExponent num den)).2 <
      2 * twoPow (f.precision - 1) := by
  rw [inUnits_div_lt num hden, f.cast_bits hp, ← two_zpow_add]
  refine lt_of_lt_of_le (fullExponent_spec hp hnum hden).2
    (zpow_le_zpow_right₀ (by norm_num) ?_)
  have hmax := f.unitExponent_eq_max num den
  omega

theorem nearest_lt (hp : 0 < f.precision) (hden : 0 < den)
    (hlimit : f.minExponent + f.precision ≤ limit) (h : (num / den : ℚ) < 2 ^ limit) :
    f.nearest num den <
      ((limit - f.precision - f.minExponent).toNat + 3) * twoPow (f.precision - 1) := by
  have hunit := twoPow_pos (f.precision - 1)
  rcases Nat.eq_zero_or_pos num with rfl | hnum
  · exact Nat.mul_pos (Nat.succ_pos _) hunit
  · have hfull := two_zpow_lt.mp (lt_of_le_of_lt (fullExponent_spec hp hnum hden).1 h)
    have hunits := units_lt hp hnum hden
    obtain ⟨e, he⟩ : ∃ e, f.unitExponent num den = e := ⟨_, rfl⟩
    have hmax : e = max (f.fullExponent num den) f.minExponent := he ▸ unitExponent_eq_max num den
    rw [he] at hunits
    have hround := divNearestEven_le (inUnits num den e).1 (inUnits num den e).2
    have hexp : (e - f.minExponent).toNat ≤ (limit - f.precision - f.minExponent).toNat := by omega
    unfold nearest
    rw [if_neg (by omega)]
    dsimp only
    rw [he]
    refine Nat.lt_of_le_of_lt (Nat.min_le_left _ _) ?_
    calc (e - f.minExponent).toNat * twoPow (f.precision - 1) +
          divNearestEven (inUnits num den e).1 (inUnits num den e).2
        ≤ (limit - f.precision - f.minExponent).toNat * twoPow (f.precision - 1) +
          2 * twoPow (f.precision - 1) :=
          Nat.add_le_add (Nat.mul_le_mul_right _ hexp) (by omega)
      _ < ((limit - f.precision - f.minExponent).toNat + 3) * twoPow (f.precision - 1) := by
        rw [Nat.add_mul]
        omega

/-- What a code stands for, by the number of units that it is below. -/
theorem value_lt (hp : 0 < f.precision) {code count : Nat}
    (h : code < (count + 2) * twoPow (f.precision - 1)) :
    (f.significand code * 2 ^ f.exponent code : ℚ) < 2 ^ (f.minExponent + f.precision + count) := by
  have hunit := twoPow_pos (f.precision - 1)
  have hsign : (f.significand code : ℚ) < 2 ^ (f.precision : Int) := by
    rw [← f.cast_bits hp]
    exact_mod_cast (f.fits_code code).lt
  have hexp : f.exponent code ≤ f.minExponent + count := by
    have hdiv : code / twoPow (f.precision - 1) < count + 2 := by
      rw [Nat.div_lt_iff_lt_mul hunit]
      exact h
    unfold exponent
    omega
  calc (f.significand code * 2 ^ f.exponent code : ℚ)
      < 2 ^ (f.precision : Int) * 2 ^ f.exponent code :=
        mul_lt_mul_of_pos_right hsign (two_zpow_pos _)
    _ = 2 ^ (f.precision + f.exponent code) := (two_zpow_add _ _).symm
    _ ≤ 2 ^ (f.minExponent + f.precision + count) :=
        zpow_le_zpow_right₀ (by norm_num) (by omega)

end Number.BinaryFormat

namespace Number.Binary64

/-- A double that is far from infinity, below this power of two. -/
structure Below (x : Binary64) (limit : Int) : Prop where
  isFinite : x.isFinite = true
  abs_lt : |x.toRat| < 2 ^ limit

variable {limit : Int} (hlow : -1021 ≤ limit) (hhigh : limit ≤ 1020)

include hlow hhigh

theorem below_ofRatio (negative : Bool) (num : Nat) {den : Nat} (hden : 0 < den)
    (h : (num / den : ℚ) < 2 ^ limit) : (ofRatio negative num den).Below (limit + 1) := by
  have hlt : double.nearest num den <
      ((limit - double.precision - double.minExponent).toNat + 1 + 2) *
        twoPow (double.precision - 1) :=
    BinaryFormat.nearest_lt (by decide) hden (show (-1074 : Int) + 53 ≤ limit by omega) h
  have hcount : (limit - double.precision - double.minExponent).toNat ≤ 2041 := by
    show (limit - 53 - -1074).toNat ≤ 2041
    omega
  have hinfinity : double.nearest num den < double.infinity :=
    Nat.lt_of_lt_of_le hlt
      (Nat.le_trans (Nat.mul_le_mul_right _ (Nat.add_le_add_right hcount 3)) (by decide))
  have hcode : (ofRatio negative num den).code = double.nearest num den :=
    code_ofCode (Nat.lt_trans hinfinity (by decide)) negative
  refine ⟨?_, ?_⟩
  · rw [isFinite, hcode]
    exact decide_eq_true hinfinity
  · rw [abs_toRat, hcode]
    refine lt_of_lt_of_le (BinaryFormat.value_lt (by decide) hlt) ?_
    refine zpow_le_zpow_right₀ (by norm_num) ?_
    show (-1074 : Int) + 53 + ((limit - 53 - -1074).toNat + 1 : Nat) ≤ limit + 1
    omega

theorem below_ofRat {r : ℚ} (h : |r| < 2 ^ limit) : (ofRat r).Below (limit + 1) :=
  below_ofRatio hlow hhigh _ _ r.den_pos (by rwa [natAbs_num_div_den])

theorem below_ofInt {n : Int} (h : |(n : ℚ)| < 2 ^ limit) : (ofInt n).Below (limit + 1) := by
  refine below_ofRatio hlow hhigh _ _ Nat.one_pos ?_
  rwa [Nat.cast_one, div_one, Nat.cast_natAbs, Int.cast_abs]

end Number.Binary64

/-! ### Seconds -/

theorem wireInteger_ne_null {n : Int} (hmin : minInt64 ≤ n) (hmax : n ≤ maxUInt64) :
    wireInteger n ≠ .null := by
  unfold wireInteger WireInt.of?
  rw [dif_pos ⟨hmin, hmax⟩]
  exact nofun

theorem Number.Binary64.toWire_ne_null {x : Binary64} (h : x.isFinite = true) :
    x.toWire ≠ .null := by
  unfold toWire
  rw [if_pos h]
  exact nofun

/-- Seconds and their millionths are far from the limits of a double. -/
theorem isFinite_fractionalSeconds {seconds micros : Int} (hseconds : seconds.natAbs < 2 ^ 60)
    (hmicros : micros.natAbs < 2 ^ 60) : (fractionalSeconds seconds micros).isFinite = true := by
  have hcast {n : Int} (h : n.natAbs < 2 ^ 60) : |(n : ℚ)| < 2 ^ (60 : Int) := by
    rw [← Int.cast_abs, ← Nat.cast_natAbs]
    exact_mod_cast h
  have hpart : |mkRat micros 1000000| < (2 : ℚ) ^ (60 : Int) := by
    rw [Rat.mkRat_eq_div, abs_div]
    refine lt_of_le_of_lt (div_le_self (abs_nonneg _) ?_) (hcast hmicros)
    norm_num
  have hwhole := Binary64.below_ofInt (by norm_num) (by norm_num) (hcast hseconds)
  have hfraction := Binary64.below_ofRat (by norm_num) (by norm_num) hpart
  have hsum : |(Binary64.ofInt seconds).toRat + (Binary64.ofRat (mkRat micros 1000000)).toRat| <
      (2 : ℚ) ^ (62 : Int) := by
    calc _ ≤ |(Binary64.ofInt seconds).toRat| + |(Binary64.ofRat (mkRat micros 1000000)).toRat| :=
          abs_add_le _ _
      _ < 2 ^ (60 + 1 : Int) + 2 ^ (60 + 1 : Int) := add_lt_add hwhole.abs_lt hfraction.abs_lt
      _ = 2 ^ (62 : Int) := by norm_num
  exact (Binary64.below_ofRat (by norm_num) (by norm_num) hsum).isFinite

theorem Calendar.Instant.toWire_ne_null (t : Instant) : t.toWire ≠ .null := by
  have hlow := t.minSeconds_le
  have hhigh := t.le_maxSeconds
  have hnanos := t.nanos_lt
  unfold minSeconds at hlow
  unfold maxSeconds at hhigh
  unfold nanosPerSecond at hnanos
  unfold toWire
  split
  · refine wireInteger_ne_null ?_ ?_
    · unfold minInt64
      omega
    · unfold maxUInt64
      omega
  · exact Binary64.toWire_ne_null (isFinite_fractionalSeconds (by omega) (by omega))

theorem Duration.toWire_ne_null (d : Duration) : d.toWire ≠ .null := by
  have hlow := d.neg_max_le
  have hhigh := d.le_max
  have hseconds : d.seconds.natAbs = d.nanos.natAbs / 1000000000 := Int.natAbs_tdiv d.nanos _
  have hmicros : (d.subsecond.tdiv 1000).natAbs = d.nanos.natAbs % 1000000000 / 1000 := by
    rw [Int.natAbs_tdiv]
    exact congrArg (· / 1000) (Int.natAbs_tmod d.nanos _)
  unfold maxDuration maxInt64 at hlow hhigh
  unfold toWire
  split
  · refine wireInteger_ne_null ?_ ?_
    · unfold minInt64
      omega
    · unfold maxUInt64
      omega
  · exact Binary64.toWire_ne_null (isFinite_fractionalSeconds (by omega) (by omega))

/-! ### Whatever a type gives -/

theorem RowRef.toWire_ne_null {r : RowRef} (h : r.isEmpty = false) : r.toWire ≠ .null := by
  unfold toWire
  rw [h]
  exact nofun

/-- Only a float and a reference could be missing on the wire, and they have passed the check for
finite numbers, or have an id. -/
theorem ElementType.toWire_ne_null {τ : Type} {follow : LookupType → RowRef → Decoding τ Value}
    {e : ElementType} {input : Input} {v : Value} {w w₁ w₂ : World τ}
    (hd : (e.decode follow input).run w = (.ok v, w₁))
    (hv : (e.validate follow v).run w₁ = (.ok (), w₂)) (hne : v ≠ .null) : v.toWire ≠ .null := by
  have hscalar {dec : Input → Except TypeError Value}
      (hd : (liftExcept (dec input) : Decoding τ Value).run w = (.ok v, w₁)) : dec input = .ok v := by
    rw [run_liftExcept] at hd
    exact congrArg Prod.fst hd
  cases e with
  | undefined cause => cases hd
  | bool =>
    obtain ⟨b, rfl⟩ := (BoolType.of_decode (hscalar hd)).resolve_left hne
    exact nofun
  | signed t =>
    obtain ⟨n, rfl, -⟩ := (SignedType.of_decode (hscalar hd)).resolve_left hne
    exact nofun
  | unsigned t =>
    obtain ⟨n, rfl, -⟩ := (UnsignedType.of_decode (hscalar hd)).resolve_left hne
    exact nofun
  | float t =>
    obtain ⟨x, rfl, -⟩ := (FloatType.of_decode (hscalar hd)).resolve_left hne
    have hcheck : (liftExcept (t.validate (.float (t.normalize x))) : Decoding τ Unit).run w₁ =
      (.ok (), w₂) := hv
    rw [run_liftExcept] at hcheck
    exact Number.Binary64.toWire_ne_null (FloatType.isFinite_of_check (congrArg Prod.fst hcheck))
  | binary t =>
    obtain ⟨content, rfl, -⟩ := (BinaryType.of_decode (hscalar hd)).resolve_left hne
    exact nofun
  | text t =>
    obtain ⟨s, rfl, -⟩ := (TextType.of_decode (hscalar hd)).resolve_left hne
    exact nofun
  | datetime t =>
    obtain ⟨i, rfl⟩ := (DatetimeType.of_decode (hscalar hd)).resolve_left hne
    exact i.toWire_ne_null
  | duration t =>
    obtain ⟨span, rfl, -⟩ := DurationType.of_decode (hscalar hd)
    cases span with
    | none => exact absurd rfl hne
    | some d => exact d.toWire_ne_null
  | lookup l =>
    rcases LookupType.decode_cases hd with ⟨-, hnull, -⟩ | ⟨r, -, rfl, hcheck⟩
    · exact absurd hnull hne
    · obtain ⟨id, x, hid, -⟩ := LookupType.check_run hcheck
      exact RowRef.toWire_ne_null (RowRef.isEmpty_of_nonBlank? hid)

/-- A value that a type gives is there on the wire unless it is null. -/
theorem FieldType.Gives.toWire_ne_null {t : FieldType} {v : Value} (h : t.Gives v)
    (hne : v ≠ .null) : v.toWire ≠ .null := by
  obtain ⟨τ, follow, input, w, h⟩ := h
  have hrun : (t.decodeBy follow input).run w = (.ok v, ((t.decodeBy follow input).run w).2) :=
    Prod.ext h rfl
  obtain ⟨v₁, w₁, hdecoded, hrun⟩ := run_bind_ok hrun
  obtain ⟨_, w₂, hvalid, hrun⟩ := run_bind_ok hrun
  cases hrun
  cases t with
  | element e => exact ElementType.toWire_ne_null hdecoded hvalid hne
  | list e =>
    obtain ⟨inputs, w₀, -, hdecoded⟩ := run_bind_ok hdecoded
    cases inputs with
    | none =>
      cases hdecoded
      exact absurd rfl hne
    | some inputs =>
      obtain ⟨vs, _, -, hdecoded⟩ := run_bind_ok hdecoded
      cases hdecoded
      exact nofun

end TenantSchema
