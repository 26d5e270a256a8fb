import TenantSchema.Proofs.CompactLiterals
import TenantSchema.Proofs.IntervalLiterals

/-!
# Decimal amounts and their units

An amount keeps eighteen digits of its fraction. For units of a second and less, the others are
below a nanosecond. For longer units they are not: together with what the kept digits leave over,
they may complete another nanosecond, which is then missing from what the amount comes to. More than
one is never missing.
-/

namespace TenantSchema.Duration

open TenantSchema.Number

/-- So many nanoseconds is what a word of an interval or of a compact literal stands for. -/
def IsAmountUnit (unit : Int) : Prop :=
  ∃ word, intervalUnit? word = some unit ∨ compactUnit? word = some unit

namespace IsAmountUnit

variable {unit : Int}

/-- What all entries of both tables have in common. -/
theorem of_tables {P : Int → Prop} (h : IsAmountUnit unit) (hinterval : ∀ u ∈ intervalUnits, P u.2)
    (hcompact : ∀ u ∈ compactUnits, P u.2) : P unit := by
  obtain ⟨word, hword | hword⟩ := h
  · exact hinterval _ (intervalUnit?_eq_some_iff.mp hword)
  · exact hcompact _ (mem_of_compactUnit? hword)

theorem pos (h : IsAmountUnit unit) : 1 ≤ unit :=
  h.of_tables (P := (1 ≤ ·)) (by decide +kernel) (by decide +kernel)

theorem le_year (h : IsAmountUnit unit) : unit ≤ year :=
  h.of_tables (P := (· ≤ year)) (by decide +kernel) (by decide +kernel)

/-- The short units are whole parts of what the kept digits resolve. -/
theorem dvd_of_le_second (h : IsAmountUnit unit) (hle : unit ≤ second) :
    unit.toNat ∣ tenPow keptDigits :=
  h.of_tables (P := fun unit => unit ≤ second → unit.toNat ∣ tenPow keptDigits)
    (by decide +kernel) (by decide +kernel) hle

end IsAmountUnit

namespace SignedDecimal

variable (d : SignedDecimal)

/-- Nanoseconds of so many units, by all digits, cut toward zero. -/
def truncatedIn (unit : Int) : Int :=
  (d.sign.apply (numeralValue d.digits) * unit).tdiv d.denominator

/-- The digits that are dropped complete no further nanosecond. -/
def DropsNothing (unit : Int) : Prop := d.restIn unit.toNat < d.denominator

instance (unit : Int) : Decidable (d.DropsNothing unit) := inferInstanceAs (Decidable (_ < _))

theorem restIn_lt_twice {unit : Nat} (hunit : unit ≤ tenPow keptDigits) :
    d.restIn unit < d.denominator + d.denominator := by
  have hmod : numeralValue d.kept * unit % tenPow d.kept.length < tenPow d.kept.length :=
    Nat.mod_lt _ (tenPow_pos _)
  have hrest : numeralValue d.dropped * unit ≤ tenPow d.kept.length * tenPow d.dropped.length := by
    rcases d.dropped_eq_nil_or with hnil | hfull
    · rw [hnil]
      simp [numeralValue]
    · rw [hfull, Nat.mul_comm]
      exact Nat.mul_le_mul hunit d.numeralValue_dropped_lt.le
  unfold restIn
  rw [denominator_eq]
  exact Nat.add_lt_add_of_lt_of_le (Nat.mul_lt_mul_of_pos_right hmod (tenPow_pos _)) hrest

/-- All digits together: those that are kept, and whether the others complete a nanosecond. -/
theorem digits_div (unit : Nat) : numeralValue d.digits * unit / d.denominator =
    numeralValue d.whole * unit + numeralValue d.kept * unit / tenPow d.kept.length +
      d.restIn unit / d.denominator := by
  have hdenominator : 0 < d.denominator := tenPow_pos _
  have hsplit : numeralValue d.digits * unit = d.denominator * (numeralValue d.whole * unit) +
      numeralValue (d.fraction.getD []) * unit := by
    rw [digits, numeralValue_append, Nat.add_mul, Nat.mul_right_comm, Nat.mul_comm _ (tenPow _)]
    rfl
  rw [hsplit, Nat.mul_add_div hdenominator, fraction_div, Nat.add_assoc]

theorem truncatedIn_eq (unit : Nat) : d.truncatedIn unit =
    d.sign.apply (d.magnitudeIn unit + (d.restIn unit / d.denominator : Nat)) := by
  have hdigits : (numeralValue d.digits * unit : Int).tdiv d.denominator =
      d.magnitudeIn unit + (d.restIn unit / d.denominator : Nat) := by
    rw [Int.tdiv_eq_ediv_of_nonneg (Int.mul_nonneg (Int.natCast_nonneg _) (Int.natCast_nonneg _))]
    exact congrArg Nat.cast (d.digits_div unit)
  unfold truncatedIn
  cases d.sign with
  | minus => rw [Sign.apply_minus, Sign.apply_minus, Int.neg_mul, Int.neg_tdiv, hdigits]
  | _ => exact hdigits

section Cases

variable {d} {unit : Nat}

theorem DropsNothing.truncatedIn_eq (h : d.DropsNothing unit) :
    d.truncatedIn unit = d.valueIn unit := by
  have hnone : d.restIn unit / d.denominator = 0 := Nat.div_eq_of_lt h
  rw [SignedDecimal.truncatedIn_eq, hnone, Nat.cast_zero, Int.add_zero, valueIn]

theorem truncatedIn_of_not_dropsNothing (hunit : unit ≤ tenPow keptDigits)
    (h : ¬ d.DropsNothing unit) : d.truncatedIn unit = d.valueIn unit + d.sign.apply 1 := by
  have hone : d.restIn unit / d.denominator = 1 := by
    refine Nat.div_eq_of_lt_le ?_ ?_
    · rw [Nat.one_mul]
      exact Nat.le_of_not_lt h
    · rw [Nat.add_mul, Nat.one_mul]
      exact d.restIn_lt_twice hunit
  rw [SignedDecimal.truncatedIn_eq, hone, valueIn]
  cases d.sign with
  | minus => exact Int.neg_add
  | _ => rfl

end Cases

/-- What an amount comes to, if it comes to anything. -/
theorem scale?_eq_pure {a : Amount} {unit n : Int} (ha : readAmount? d.text = some a)
    (hunit : IsAmountUnit unit) (hn : a.scale? unit = pure n) : n = d.valueIn unit := by
  rw [readAmount?_text] at ha
  obtain ⟨-, -, rfl⟩ := Option.map_eq_some_iff.mp ha
  have hnonneg : 0 ≤ unit := Int.le_trans (by decide) hunit.pos
  rw [d.scale?_amount_in hnonneg hunit.le_year] at hn
  split at hn
  · cases hn
    rfl
  · cases hn

end SignedDecimal

/-- A token that is accepted is a decimal. In any unit, what it comes to is what its kept digits
make, and this is the exact number of nanoseconds, cut toward zero, if and only if the dropped digits
complete no further one. Otherwise one nanosecond is missing. None is missing if no digit was
dropped, and none for units of a second or less. -/
theorem decimal_amount_exact_iff {token : List Char} {a : Amount} {unit n : Int}
    (ha : readAmount? token = some a) (hunit : IsAmountUnit unit)
    (hn : a.scale? unit = pure n) :
    (∃ d : SignedDecimal, d.text = token) ∧ ∀ d : SignedDecimal, d.text = token →
      n = d.valueIn unit ∧ (n = d.truncatedIn unit ↔ d.DropsNothing unit) ∧
        (¬ d.DropsNothing unit → d.truncatedIn unit = n + d.sign.apply 1) ∧
          (d.dropped = [] ∨ unit ≤ second → d.DropsNothing unit) := by
  refine ⟨SignedDecimal.exists_text ha, ?_⟩
  rintro d rfl
  obtain rfl := d.scale?_eq_pure ha hunit hn
  obtain ⟨units, rfl⟩ : ∃ units : Nat, unit = units :=
    ⟨unit.toNat, (Int.toNat_of_nonneg (Int.le_trans (by decide) hunit.pos)).symm⟩
  have hmissing (h : ¬ d.DropsNothing units) :
      d.truncatedIn units = d.valueIn units + d.sign.apply 1 := by
    refine SignedDecimal.truncatedIn_of_not_dropsNothing ?_ h
    exact Int.ofNat_le.mp (Int.le_trans hunit.le_year (by decide))
  refine ⟨rfl, ⟨fun hexact => ?_, fun h => h.truncatedIn_eq.symm⟩, hmissing, ?_⟩
  · by_contra h
    have hzero : d.sign.apply 1 = 0 := by
      have := hmissing h
      omega
    cases hsign : d.sign <;> simp [hsign] at hzero
  · rintro (hnil | hsecond)
    · exact d.restIn_lt_of_dropped_eq_nil hnil
    · exact d.restIn_lt_of_dvd (hunit.dvd_of_le_second hsecond)

/-- A sixtieth of a minute, and a little more in the twentieth digit. -/
def sixtieth : SignedDecimal where
  sign := .absent
  whole := ['0']
  fraction := some "01666666666666666667".toList
  isNumeral := ⟨by decide, List.all_eq_true.mp (by decide)⟩

theorem sixtieth_scaled : sixtieth.amount.scale? minute = pure 999999999 := by
  have hrun : (sixtieth.amount.scale? minute).run = .ok (some 999999999) := by decide +kernel
  exact hrun

/-- The dropped digits make the nanosecond that is missing from a second. -/
theorem sixtieth_misses_nanosecond :
    readAmount? sixtieth.text = some sixtieth.amount ∧ IsAmountUnit minute ∧
      sixtieth.amount.scale? minute = pure 999999999 ∧
        ¬ sixtieth.DropsNothing minute ∧ sixtieth.truncatedIn minute = 999999999 + 1 := by
  have ha : readAmount? sixtieth.text = some sixtieth.amount := by decide +kernel
  have hunit : IsAmountUnit minute := ⟨"minutes".toList, .inl (by decide +kernel)⟩
  have hdrops : ¬ sixtieth.DropsNothing minute := by decide +kernel
  exact ⟨ha, hunit, sixtieth_scaled, hdrops,
    ((decimal_amount_exact_iff ha hunit sixtieth_scaled).2 sixtieth rfl).2.2.1 hdrops⟩

/-- A little more than a sixtieth of a minute is read as less than a second. -/
theorem sixtieth_is_cut_short :
    ¬(∀ (d : SignedDecimal) (a : Amount) (unit n : Int), readAmount? d.text = some a →
        IsAmountUnit unit → a.scale? unit = pure n → n = d.truncatedIn unit) ∧
      (read? "0.01666666666666666667 minutes").map (·.map (·.nanos)) = .ok (some 999999999) := by
  refine ⟨fun h => ?_, by decide +kernel⟩
  have hexact := h sixtieth sixtieth.amount minute 999999999 (by decide +kernel)
    ⟨"minutes".toList, .inl (by decide +kernel)⟩ sixtieth_scaled
  exact absurd hexact (by decide +kernel)

end TenantSchema.Duration
