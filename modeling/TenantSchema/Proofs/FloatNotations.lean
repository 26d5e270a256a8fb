import Mathlib.Data.List.Basic
import TenantSchema.Number.FloatText
import TenantSchema.Proofs.IntegerLiterals

/-!
# The two notations of a float

A float is written with its shortest digits both in messages and on the wire. The texts are the same
if there are digits after the point and the wire needs no exponent. A shortest decimal does not end
in a zero, so no text in messages looks like a whole number on the wire.
-/

namespace TenantSchema.Number

/-! ### Multiples of a power of ten -/

/-- The next unit is ten times as large, which its fraction shows above or below. -/
theorem tenPow_toNat_cases (k : Int) :
    (tenPow (k + 1).toNat = 10 * tenPow k.toNat ∧ tenPow (-(k + 1)).toNat = tenPow (-k).toNat) ∨
      (tenPow (k + 1).toNat = tenPow k.toNat ∧
        10 * tenPow (-(k + 1)).toNat = tenPow (-k).toNat) := by
  rcases Int.lt_or_le k 0 with hneg | hpos
  · refine .inr ⟨by rw [Int.toNat_of_nonpos (by omega), Int.toNat_of_nonpos (by omega)], ?_⟩
    rw [← tenPow_succ]
    congr 1
    omega
  · refine .inl ⟨?_, by rw [Int.toNat_of_nonpos (by omega), Int.toNat_of_nonpos (by omega)]⟩
    rw [← tenPow_succ]
    congr 1
    omega

namespace RoundingInterval

variable (i : RoundingInterval)

theorem holds_scaled {c : Nat} (hc : 0 < c) (num den : Nat) :
    i.holds (c * num) (c * den) = i.holds num den := by
  have hlow : i.low * (c * den) = c * (i.low * den) := Nat.mul_left_comm ..
  have hhigh : i.high * (c * den) = c * (i.high * den) := Nat.mul_left_comm ..
  unfold holds
  rw [hlow, hhigh, Nat.mul_assoc]
  simp only [Nat.mul_le_mul_left_iff hc, Nat.mul_lt_mul_left hc]

theorem not_holds_zero (hlow : 0 < i.low) {den : Nat} (hden : 0 < den) :
    i.holds 0 den = false := by
  have hpos : 0 < i.low * den := Nat.mul_pos hlow hden
  unfold holds
  rw [Nat.zero_mul]
  split <;> rw [decide_eq_false (by omega), Bool.false_and]

/-- The decimal `digits * 10 ^ k` rounds to the double. -/
def admits (digits : Nat) (k : Int) : Bool :=
  i.holds (digits * tenPow k.toNat) (tenPow (-k).toNat)

/-- The greatest number of units of `10 ^ k` up to the value. -/
def floorUnits (k : Int) : Nat := i.value * tenPow (-k).toNat / (i.scale * tenPow k.toNat)

theorem admits_ten (digits : Nat) (k : Int) : i.admits (10 * digits) k = i.admits digits (k + 1) := by
  unfold admits
  rcases tenPow_toNat_cases k with ⟨hnum, hden⟩ | ⟨hnum, hden⟩
  · rw [hnum, hden, Nat.mul_assoc, Nat.mul_left_comm]
  · rw [hnum, ← hden, Nat.mul_assoc]
    exact i.holds_scaled (by decide) _ _

theorem floorUnits_next (k : Int) : i.floorUnits (k + 1) = i.floorUnits k / 10 := by
  unfold floorUnits
  rw [Nat.div_div_eq_div_mul]
  rcases tenPow_toNat_cases k with ⟨hnum, hden⟩ | ⟨hnum, hden⟩
  · rw [hnum, hden, Nat.mul_assoc, Nat.mul_comm 10]
  · rw [hnum, ← hden, Nat.mul_left_comm, Nat.mul_comm _ 10,
      Nat.mul_div_mul_left _ _ (by decide : 0 < 10)]

end RoundingInterval

section Neighbours

variable {tie : TieRule} {i : RoundingInterval} {k : Int} {d : Decimal}

theorem neighbour?_eq_some (h : neighbour? tie i k = some d) : d.exponent = k ∧
    (d.digits = i.floorUnits k ∨ d.digits = i.floorUnits k + 1) ∧ i.admits d.digits k = true := by
  unfold neighbour? at h
  dsimp only at h
  split at h
  · next hboth =>
    obtain ⟨hlow, hhigh⟩ := Bool.and_eq_true_iff.mp hboth
    cases h
    refine ⟨rfl, ?_⟩
    dsimp only
    split
    · exact ⟨.inr rfl, hhigh⟩
    · exact ⟨.inl rfl, hlow⟩
  · split at h
    · next hlow =>
      cases h
      exact ⟨rfl, .inl rfl, hlow⟩
    · split at h
      · next hhigh =>
        cases h
        exact ⟨rfl, .inr rfl, hhigh⟩
      · cases h

theorem neighbour?_eq_none (h : neighbour? tie i k = none) :
    i.admits (i.floorUnits k) k = false ∧ i.admits (i.floorUnits k + 1) k = false := by
  unfold neighbour? at h
  dsimp only at h
  split at h
  · cases h
  · split at h
    · cases h
    · next hlow =>
      split at h
      · cases h
      · next hhigh => exact ⟨Bool.eq_false_iff.mpr hlow, Bool.eq_false_iff.mpr hhigh⟩

/-- With a zero at the end, the decimal would have been found among those with a digit less. -/
theorem mod_ten_of_neighbour? (h : neighbour? tie i k = some d)
    (hbefore : neighbour? tie i (k + 1) = none) : d.digits % 10 ≠ 0 := by
  intro hzero
  obtain ⟨-, hfloor, hadmits⟩ := neighbour?_eq_some h
  obtain ⟨hlow, hhigh⟩ := neighbour?_eq_none hbefore
  have hten : d.digits = 10 * (d.digits / 10) := by omega
  rw [hten, i.admits_ten] at hadmits
  rw [i.floorUnits_next] at hlow hhigh
  rcases hfloor with hd | hd
  · rw [hd, hlow] at hadmits
    cases hadmits
  · have hnext : d.digits / 10 = i.floorUnits k / 10 + 1 := by omega
    rw [hnext, hhigh] at hadmits
    cases hadmits

end Neighbours

/-! ### The leading digit -/

theorem tenPow_length_toDigits_le {n : Nat} (hn : 0 < n) :
    tenPow ((Nat.toDigits 10 n).length - 1) ≤ n := by
  by_cases hone : (Nat.toDigits 10 n).length = 1
  · rw [hone]
    exact hn
  · have hpos : 0 < (Nat.toDigits 10 n).length := Nat.length_toDigits_pos
    have hlong : ¬ (Nat.toDigits 10 n).length ≤ (Nat.toDigits 10 n).length - 1 := by omega
    rw [Nat.length_toDigits_le_iff (by decide) (by omega)] at hlong
    exact Nat.not_lt.mp hlong

/-- The value has one digit before the point in units of its leading digit. -/
theorem floorUnits_log10Floor (i : RoundingInterval) (hvalue : 0 < i.value) :
    i.floorUnits (log10Floor i.value i.scale) < 10 := by
  unfold log10Floor
  dsimp only
  split
  · have hpos : 0 < (Nat.toDigits 10 (i.value / i.scale)).length := Nat.length_toDigits_pos
    have hlt := (Nat.length_toDigits_le_iff (by decide) hpos).mp (Nat.le_refl _)
    generalize (Nat.toDigits 10 (i.value / i.scale)).length = length at hpos hlt
    have hnum : ((length : Int) - 1).toNat = length - 1 := by omega
    have hden : (-((length : Int) - 1)).toNat = 0 := by omega
    have hten : 10 * tenPow (length - 1) = 10 ^ length := by
      rw [← tenPow_succ, Nat.sub_add_cancel hpos]
      rfl
    unfold RoundingInterval.floorUnits
    rw [hnum, hden, tenPow_zero, Nat.mul_one, ← Nat.div_div_eq_div_mul,
      Nat.div_lt_iff_lt_mul (tenPow_pos _), hten]
    exact hlt
  · next hsmall =>
    have hq : (i.scale + i.value - 1) / i.value - 1 = (i.scale - 1) / i.value := by
      rw [Nat.sub_add_comm (by omega), Nat.add_div_right _ hvalue]
      rfl
    have hqpos : 0 < (i.scale - 1) / i.value := Nat.div_pos (by omega) hvalue
    have hle := tenPow_length_toDigits_le hqpos
    have hpos : 0 < (Nat.toDigits 10 ((i.scale - 1) / i.value)).length := Nat.length_toDigits_pos
    rw [hq]
    generalize (Nat.toDigits 10 ((i.scale - 1) / i.value)).length = length at hle hpos
    have hnum : (0 - (length : Int)).toNat = 0 := by omega
    have hden : (-(0 - (length : Int))).toNat = length := by omega
    have hten : tenPow length = 10 * tenPow (length - 1) := by
      rw [← tenPow_succ, Nat.sub_add_cancel hpos]
    have hvalue' := (Nat.le_div_iff_mul_le hvalue).mp hle
    unfold RoundingInterval.floorUnits
    rw [hnum, hden, tenPow_zero, Nat.mul_one, Nat.div_lt_iff_lt_mul (by omega), hten,
      Nat.mul_left_comm, Nat.mul_comm i.value]
    omega

/-! ### Shortest decimals -/

theorem significand_pos {code : Nat} (h : code ≠ 0) : 0 < double.significand code := by
  unfold BinaryFormat.significand
  dsimp only
  split
  · exact Nat.pos_of_ne_zero h
  · exact Nat.add_pos_left (twoPow_pos _) _

namespace RoundingInterval

variable {x : Binary64} (h : x.code ≠ 0)

include h

theorem low_pos : 0 < (of x).low := by
  have hm := significand_pos h
  unfold of
  dsimp only
  refine Nat.mul_pos ?_ (twoPow_pos _)
  split <;> omega

theorem value_pos : 0 < (of x).value :=
  Nat.mul_pos (Nat.mul_pos (by decide) (significand_pos h)) (twoPow_pos _)

end RoundingInterval

theorem exists_of_findSome?_range {α : Type} {f : Nat → Option α} {n : Nat} {a : α}
    (h : (List.range n).findSome? f = some a) : ∃ m, f m = some a ∧ ∀ l < m, f l = none := by
  induction n with
  | zero => cases h
  | succ n ih =>
    rw [List.range_succ, List.findSome?_append] at h
    cases hfirst : (List.range n).findSome? f with
    | some b =>
      rw [hfirst] at h
      exact ih (hfirst.trans h)
    | none =>
      rw [hfirst] at h
      refine ⟨n, by simpa using h, fun l hl => ?_⟩
      exact List.findSome?_eq_none_iff.mp hfirst l (List.mem_range.mpr hl)

/-- No shortest decimal with digits after the point ends in a zero. -/
theorem shortest_mod_ten {tie : TieRule} {x : Binary64} (hx : x.code ≠ 0)
    (hfraction : (shortest tie x).exponent < 0) : (shortest tie x).digits % 10 ≠ 0 := by
  unfold shortest at hfraction ⊢
  dsimp only at hfraction ⊢
  split at hfraction
  · next d hfound =>
    obtain ⟨n, hd, hnone⟩ := exists_of_findSome?_range hfound
    obtain ⟨-, hfloor, hadmits⟩ := neighbour?_eq_some hd
    unfold Decimal.dropZero
    cases n with
    | zero =>
      -- there is a single digit, or a carry has left a one and a zero
      have hlead := floorUnits_log10Floor (.of x) (RoundingInterval.value_pos hx)
      have hle : d.digits ≤ 10 := by
        rw [Int.natCast_zero, Int.sub_zero] at hfloor
        omega
      have hne : d.digits ≠ 0 := by
        intro hzero
        rw [hzero, RoundingInterval.admits, Nat.zero_mul,
          RoundingInterval.not_holds_zero _ (RoundingInterval.low_pos hx) (tenPow_pos _)] at hadmits
        cases hadmits
      by_cases hcarry : d.digits % 10 = 0 ∧ d.digits ≠ 0
      · rw [if_pos hcarry]
        show d.digits / 10 % 10 ≠ 0
        omega
      · rw [if_neg hcarry]
        omega
    | succ n =>
      have hnext : log10Floor (RoundingInterval.of x).value (RoundingInterval.of x).scale -
          ((n + 1 : Nat) : Int) + 1 =
            log10Floor (RoundingInterval.of x).value (RoundingInterval.of x).scale - (n : Nat) := by
        omega
      have hmod : d.digits % 10 ≠ 0 := mod_ten_of_neighbour? hd (hnext ▸ hnone n (by omega))
      rw [if_neg fun hzero => hmod hzero.1]
      exact hmod
  · exact absurd hfraction (Int.lt_irrefl 0)

/-! ### Text with a point -/

namespace Decimal

variable (d : Decimal)

/-- The number of digits before the point. -/
def point : Int := ((Nat.toDigits 10 d.digits).length : Int) + d.exponent

/-- What stands before the point of a decimal that has digits behind it. -/
def wholeText : List Char :=
  if d.point ≤ 0 then ['0'] else (Nat.toDigits 10 d.digits).take d.point.toNat

/-- What stands behind it. -/
def fractionText : List Char :=
  if d.point ≤ 0 then List.replicate (-d.point).toNat '0' ++ Nat.toDigits 10 d.digits
  else (Nat.toDigits 10 d.digits).drop d.point.toNat

/-- All the digits of a whole decimal. -/
def integerText : List Char :=
  Nat.toDigits 10 d.digits ++ List.replicate d.exponent.toNat '0'

variable {d}

theorem positionalDigits_of_fraction (keepsPoint : Bool) (h : d.exponent < 0) :
    positionalDigits keepsPoint (Nat.toDigits 10 d.digits) d.point =
      d.wholeText ++ '.' :: d.fractionText := by
  unfold positionalDigits wholeText fractionText
  by_cases hpoint : d.point ≤ 0
  · simp only [if_pos hpoint]
    rfl
  · have hlong : ¬ ((Nat.toDigits 10 d.digits).length : Int) ≤ d.point := by
      unfold point
      omega
    simp only [if_neg hpoint, if_neg hlong]

theorem positionalDigits_of_integer (keepsPoint : Bool) (h : 0 ≤ d.exponent) :
    positionalDigits keepsPoint (Nat.toDigits 10 d.digits) d.point =
      d.integerText ++ if keepsPoint then ['.', '0'] else [] := by
  have hpos : 0 < (Nat.toDigits 10 d.digits).length := Nat.length_toDigits_pos
  have hpoint : ¬ d.point ≤ 0 := by
    unfold point
    omega
  have hshort : ((Nat.toDigits 10 d.digits).length : Int) ≤ d.point := by
    unfold point
    omega
  have hzeros : d.point.toNat - (Nat.toDigits 10 d.digits).length = d.exponent.toNat := by
    unfold point
    omega
  unfold positionalDigits integerText
  rw [if_neg hpoint, if_pos hshort, hzeros]

theorem length_fractionText (h : d.exponent < 0) : (d.fractionText.length : Int) = -d.exponent := by
  unfold fractionText
  split
  · next hpoint =>
    rw [List.length_append, List.length_replicate]
    unfold point at *
    omega
  · next hpoint =>
    rw [List.length_drop]
    unfold point at *
    omega

/-- All digits are there, after zeros perhaps. -/
theorem wholeText_append_fractionText (d : Decimal) : ∃ zeros, d.wholeText ++ d.fractionText =
    List.replicate zeros '0' ++ Nat.toDigits 10 d.digits := by
  unfold wholeText fractionText
  split
  · exact ⟨(-d.point).toNat + 1, rfl⟩
  · exact ⟨0, List.take_append_drop _ _⟩

theorem numeralValue_text (d : Decimal) :
    numeralValue (d.wholeText ++ d.fractionText) = d.digits := by
  obtain ⟨zeros, htext⟩ := d.wholeText_append_fractionText
  have hzeros : numeralValue (List.replicate zeros '0') = 0 := by
    unfold numeralValue
    rw [Nat.ofDigitChars_replicate_zero, Nat.mul_zero]
  rw [htext, numeralValue_append, hzeros, Nat.zero_mul, Nat.zero_add, numeralValue,
    Nat.ofDigitChars_ten_toDigits]

theorem isDigit_of_mem_text {c : Char} (hc : c ∈ d.wholeText ++ d.fractionText) :
    c.isDigit = true := by
  obtain ⟨zeros, htext⟩ := d.wholeText_append_fractionText
  rw [htext] at hc
  rcases List.mem_append.mp hc with hc | hc
  · rw [List.eq_of_mem_replicate hc]
    rfl
  · exact Nat.isDigit_of_mem_toDigits (by decide) (by decide) hc

theorem isDigit_of_mem_integerText {c : Char} (hc : c ∈ d.integerText) : c.isDigit = true := by
  rcases List.mem_append.mp hc with hc | hc
  · exact Nat.isDigit_of_mem_toDigits (by decide) (by decide) hc
  · rw [List.eq_of_mem_replicate hc]
    rfl

/-- The point shows where the digits belong. -/
theorem eq_of_text {d' : Decimal} (h : d.exponent < 0) (h' : d'.exponent < 0)
    (hwhole : d.wholeText = d'.wholeText) (hfraction : d.fractionText = d'.fractionText) :
    d = d' := by
  have hdigits : d.digits = d'.digits := by
    rw [← d.numeralValue_text, ← d'.numeralValue_text, hwhole, hfraction]
  have hexponent : d.exponent = d'.exponent := by
    have hlength := length_fractionText h
    have hlength' := length_fractionText h'
    rw [hfraction] at hlength
    omega
  cases d
  cases d'
  cases hdigits
  cases hexponent
  rfl

end Decimal

/-! ### Two notations -/

theorem mem_e_scientificDigits (digits : List Char) (exponent : Int) :
    'e' ∈ scientificDigits digits exponent := by
  unfold scientificDigits
  simp

/-- What is written without an exponent holds digits and at most a point. -/
theorem mem_positionalDigits {keepsPoint : Bool} {d : Decimal} {c : Char}
    (hc : c ∈ positionalDigits keepsPoint (Nat.toDigits 10 d.digits) d.point) :
    c.isDigit = true ∨ c = '.' := by
  rcases Int.lt_or_le d.exponent 0 with hfraction | hinteger
  · rw [Decimal.positionalDigits_of_fraction keepsPoint hfraction] at hc
    rcases List.mem_append.mp hc with hc | hc
    · exact .inl (Decimal.isDigit_of_mem_text (List.mem_append_left _ hc))
    · rcases List.mem_cons.mp hc with hc | hc
      · exact .inr hc
      · exact .inl (Decimal.isDigit_of_mem_text (List.mem_append_right _ hc))
  · rw [Decimal.positionalDigits_of_integer keepsPoint hinteger] at hc
    rcases List.mem_append.mp hc with hc | hc
    · exact .inl (Decimal.isDigit_of_mem_integerText hc)
    · cases keepsPoint with
      | false => cases hc
      | true =>
        rcases List.mem_cons.mp hc with hc | hc
        · exact .inr hc
        · exact .inl (by rw [List.mem_singleton.mp hc]; rfl)

/-- The wire always writes a point. -/
theorem dot_mem_positionalDigits (d : Decimal) :
    '.' ∈ positionalDigits true (Nat.toDigits 10 d.digits) d.point := by
  rcases Int.lt_or_le d.exponent 0 with hfraction | hinteger
  · rw [Decimal.positionalDigits_of_fraction true hfraction]
    exact List.mem_append_right _ List.mem_cons_self
  · rw [Decimal.positionalDigits_of_integer true hinteger]
    exact List.mem_append_right _ List.mem_cons_self

namespace FloatNotation

/-- The text of a decimal in a notation. -/
def unsigned (f : FloatNotation) (d : Decimal) : List Char :=
  if f.writesPositional (d.point - 1) then
    positionalDigits f.keepsPoint (Nat.toDigits 10 d.digits) d.point
  else scientificDigits (Nat.toDigits 10 d.digits) (d.point - 1)

/-- The text of a finite number without its sign. -/
def magnitude (f : FloatNotation) (x : Binary64) : List Char :=
  if x.code = 0 then '0' :: if f.keepsPoint then ['.', '0'] else []
  else f.unsigned (shortest f.tie x)

theorem digits_of_finite (f : FloatNotation) {x : Binary64} (h : x.isFinite = true) :
    f.digits x = (if x.isNegative then ['-'] else []) ++ f.magnitude x := by
  have hlt : x.code < double.infinity := of_decide_eq_true h
  have hnan : x.isNaN = false := decide_eq_false (Nat.not_lt.mpr (Nat.le_of_lt hlt))
  unfold digits magnitude unsigned
  dsimp only
  rw [hnan, if_neg Bool.false_ne_true, h, if_neg (by decide)]
  split <;> rfl

/-- Names do not depend on the notation. -/
theorem digits_of_not_finite (f g : FloatNotation) {x : Binary64} (h : ¬ x.isFinite = true) :
    f.digits x = g.digits x := by
  unfold digits
  dsimp only
  rw [Bool.not_eq_true] at h
  rw [h]
  split <;> rfl

end FloatNotation

/-- The decimals of the wire that keep their digits in place are those from `1e-5` to below `1e16`. -/
theorem wireNotation_writesPositional (exponent : Int) :
    wireNotation.writesPositional exponent = true ↔ -5 ≤ exponent ∧ exponent ≤ 15 := by
  show (decide (-5 ≤ exponent) && decide (exponent ≤ 15)) = true ↔ _
  rw [Bool.and_eq_true, decide_eq_true_iff, decide_eq_true_iff]

theorem unsigned_agree_iff {d d' : Decimal} (hzero : d.exponent < 0 → d.digits % 10 ≠ 0) :
    plainNotation.unsigned d = wireNotation.unsigned d' ↔
      d = d' ∧ d.exponent < 0 ∧ -5 ≤ d.point - 1 ∧ d.point - 1 ≤ 15 := by
  have hplain : plainNotation.unsigned d =
      positionalDigits false (Nat.toDigits 10 d.digits) d.point := rfl
  have hpoint : Char.isDigit '.' ≠ true := by decide
  constructor
  · intro heq
    rw [hplain] at heq
    have hpositional : wireNotation.writesPositional (d'.point - 1) = true := by
      by_contra hscientific
      have he : 'e' ∈ wireNotation.unsigned d' := by
        unfold FloatNotation.unsigned
        rw [if_neg hscientific]
        exact mem_e_scientificDigits _ _
      rcases mem_positionalDigits (heq ▸ he) with hdigit | hdot
      · cases hdigit
      · cases hdot
    have hwire : wireNotation.unsigned d' =
        positionalDigits true (Nat.toDigits 10 d'.digits) d'.point := if_pos hpositional
    rw [hwire] at heq
    rcases Int.lt_or_le d.exponent 0 with hfraction | hinteger
    · have hwhole : '.' ∉ d.wholeText := fun hdot =>
        hpoint (Decimal.isDigit_of_mem_text (List.mem_append_left _ hdot))
      have hbehind : '.' ∉ d.fractionText := fun hdot =>
        hpoint (Decimal.isDigit_of_mem_text (List.mem_append_right _ hdot))
      rw [Decimal.positionalDigits_of_fraction false hfraction] at heq
      rcases Int.lt_or_le d'.exponent 0 with hfraction' | hinteger'
      · rw [Decimal.positionalDigits_of_fraction true hfraction'] at heq
        obtain ⟨hfront, -, hback⟩ := (List.append_cons_inj_of_notMem hwhole hbehind).mp heq
        have hsame := Decimal.eq_of_text hfraction hfraction' hfront hback
        subst hsame
        exact ⟨rfl, hfraction, (wireNotation_writesPositional _).mp hpositional⟩
      · -- the digit behind the point of a whole number is a zero
        rw [Decimal.positionalDigits_of_integer true hinteger'] at heq
        obtain ⟨hfront, -, hback⟩ := (List.append_cons_inj_of_notMem hwhole hbehind).mp heq
        have hvalue := d.numeralValue_text
        rw [hback, numeralValue_append] at hvalue
        refine absurd ?_ (hzero hfraction)
        rw [← hvalue]
        exact Nat.mul_mod_left _ 10
    · rw [Decimal.positionalDigits_of_integer false hinteger] at heq
      have hdot : '.' ∈ positionalDigits true (Nat.toDigits 10 d'.digits) d'.point :=
        dot_mem_positionalDigits d'
      rw [← heq] at hdot
      rcases List.mem_append.mp hdot with hdot | hdot
      · exact absurd (Decimal.isDigit_of_mem_integerText hdot) hpoint
      · cases hdot
  · rintro ⟨rfl, hfraction, hrange⟩
    rw [hplain, FloatNotation.unsigned, if_pos ((wireNotation_writesPositional _).mpr hrange),
      Decimal.positionalDigits_of_fraction _ hfraction,
      Decimal.positionalDigits_of_fraction _ hfraction]

/-- A finite float is written alike in messages and on the wire exactly if the ties of its shortest
digits do not matter, there are digits after the point, and the wire writes no exponent. -/
structure Binary64.IsWrittenAlike (x : Binary64) : Prop where
  nonzero : x.code ≠ 0
  tie : shortest .up x = shortest .toEven x
  fraction : (shortest .up x).exponent < 0
  least : -5 ≤ (shortest .up x).point - 1
  greatest : (shortest .up x).point - 1 ≤ 15

theorem floatText_eq_wireFloatText_iff (x : Binary64) :
    floatText x = wireFloatText x ↔ (x.isFinite = true → x.IsWrittenAlike) := by
  unfold floatText wireFloatText
  rw [String.ofList_inj]
  by_cases hfinite : x.isFinite = true
  · rw [FloatNotation.digits_of_finite _ hfinite, FloatNotation.digits_of_finite _ hfinite,
      List.append_cancel_left_eq]
    unfold FloatNotation.magnitude
    by_cases hx : x.code = 0
    · -- only the wire writes a point behind zero
      rw [if_pos hx, if_pos hx]
      exact iff_of_false nofun fun h => (h hfinite).nonzero hx
    · rw [if_neg hx, if_neg hx]
      show plainNotation.unsigned (shortest .up x) = wireNotation.unsigned (shortest .toEven x) ↔ _
      rw [unsigned_agree_iff (shortest_mod_ten hx)]
      constructor
      · rintro ⟨htie, hfraction, hleast, hgreatest⟩ -
        exact ⟨hx, htie, hfraction, hleast, hgreatest⟩
      · intro h
        obtain ⟨-, htie, hfraction, hleast, hgreatest⟩ := h hfinite
        exact ⟨htie, hfraction, hleast, hgreatest⟩
  · rw [FloatNotation.digits_of_not_finite plainNotation wireNotation hfinite]
    exact iff_of_true rfl fun h => absurd h hfinite

/-- A half is `0.5` in messages and on the wire. -/
example : floatText ⟨0x3FE0000000000000⟩ = wireFloatText ⟨0x3FE0000000000000⟩ :=
  (floatText_eq_wireFloatText_iff _).mpr fun _ => by constructor <;> decide +kernel

end TenantSchema.Number
