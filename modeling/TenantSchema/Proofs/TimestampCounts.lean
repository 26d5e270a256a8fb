import Mathlib.Tactic.ByContra
import TenantSchema.Calendar.Timestamp

/-!
# Counting the units of an instant

An instant that was made from a count of units is counted again in whole seconds first, which are
brought into a 64-bit word, and then in units of the rest. The count is the same again unless the
word ends within a second: before its first whole second, nanoseconds are counted too late.
-/

namespace TenantSchema.Calendar

open TenantSchema.Number

namespace Precision

theorem unitsPerSecond_pos (p : Precision) : 0 < p.unitsPerSecond := by cases p <;> decide

theorem nanosPerUnit_pos (p : Precision) : 0 < p.nanosPerUnit := by cases p <;> decide

theorem unitsPerSecond_mul_nanosPerUnit (p : Precision) :
    p.unitsPerSecond * p.nanosPerUnit = nanosPerSecond := by
  cases p <;> rfl

end Precision

/-- The nanoseconds of the first whole second that a 64-bit word counts. -/
def firstSecondNanos : Int := (minInt64 / nanosPerSecond + 1) * nanosPerSecond

theorem saturate_of_mem {n : Int} (hmin : minInt64 ≤ n) (hmax : n ≤ maxInt64) : saturate n = n := by
  unfold saturate
  omega

namespace Instant

variable {n : Int} {p : Precision} {t : Instant}

/-- Whole seconds and the units of the rest, as they were divided. -/
theorem seconds_of_ofUnits? (h : ofUnits? n p = some t) :
    t.seconds = n / p.unitsPerSecond ∧ (t.subsecond / p.nanosPerUnit : Nat) = n % p.unitsPerSecond := by
  obtain ⟨hseconds, hnanos⟩ := of?_eq_some_iff.mp h
  have hpos := p.unitsPerSecond_pos
  have hrest : 0 ≤ n % p.unitsPerSecond := Int.emod_nonneg _ (by omega)
  have hlt : n % p.unitsPerSecond < p.unitsPerSecond := Int.emod_lt_of_pos _ (by omega)
  refine ⟨hseconds, ?_⟩
  -- the rest of a second is no leap second
  have hsub : t.subsecond = (n % p.unitsPerSecond).toNat * p.nanosPerUnit := by
    have hnano := p.nanosPerUnit_pos
    have hbound : ((n % p.unitsPerSecond).toNat + 1) * p.nanosPerUnit ≤ nanosPerSecond := by
      rw [← p.unitsPerSecond_mul_nanosPerUnit]
      exact Nat.mul_le_mul_right _ (by omega)
    rw [Nat.succ_mul] at hbound
    unfold subsecond
    omega
  rw [hsub, Nat.mul_div_cancel _ p.nanosPerUnit_pos]
  omega

theorem toUnits_of_ofUnits? (h : ofUnits? n p = some t) :
    t.toUnits p = saturate (saturate (n / p.unitsPerSecond * p.unitsPerSecond) +
      n % p.unitsPerSecond) := by
  obtain ⟨hseconds, hrest⟩ := seconds_of_ofUnits? h
  unfold toUnits
  rw [hseconds, ← hrest, Int.natCast_ediv]

/-- Whole seconds that fit into the word are not bent. -/
theorem toUnits_eq_of_le (h : ofUnits? n p = some t) (hmax : n ≤ maxInt64)
    (hmin : minInt64 ≤ n / p.unitsPerSecond * p.unitsPerSecond) : t.toUnits p = n := by
  have hpos := p.unitsPerSecond_pos
  have hrest : 0 ≤ n % p.unitsPerSecond := Int.emod_nonneg _ (by omega)
  have hsum : n / p.unitsPerSecond * p.unitsPerSecond + n % p.unitsPerSecond = n := by
    rw [Int.mul_comm]
    exact Int.mul_ediv_add_emod n _
  rw [toUnits_of_ofUnits? h, saturate_of_mem hmin (by omega), hsum,
    saturate_of_mem (by omega) hmax]

/-- The calendar ends before a word of coarser units does. -/
theorem minInt64_le_of_coarse (h : ofUnits? n p = some t) (hp : p ≠ .nanosecond)
    (hword : minInt64 ≤ n) : minInt64 ≤ n / p.unitsPerSecond * p.unitsPerSecond := by
  have hseconds := (seconds_of_ofUnits? h).1
  have hfirst := t.minSeconds_le
  rw [hseconds] at hfirst
  unfold minSeconds at hfirst
  unfold minInt64 at hword ⊢
  cases p with
  | second => simpa [Precision.unitsPerSecond] using hword
  | millisecond =>
    simp only [Precision.unitsPerSecond] at hfirst ⊢
    omega
  | microsecond =>
    simp only [Precision.unitsPerSecond] at hfirst ⊢
    omega
  | nanosecond => exact absurd rfl hp

/-- Before the first whole second of the word, the whole seconds become the start of the word. -/
theorem toUnits_of_lt (h : ofUnits? n .nanosecond = some t) (hmin : minInt64 ≤ n)
    (hn : n < firstSecondNanos) : t.toUnits .nanosecond = n + minInt64 % nanosPerSecond := by
  rw [toUnits_of_ofUnits? h]
  simp only [Precision.unitsPerSecond, firstSecondNanos, nanosPerSecond, saturate, minInt64,
    maxInt64] at *
  omega

/-- The instant that a 64-bit count of units stands for has that count again, except for nanoseconds
before the first whole second of the word. Their count comes out too great, by what the word lacks
of that second. -/
theorem toUnits_ofUnits? (n : Int64) (p : Precision) (t : Instant)
    (h : ofUnits? n.toInt p = some t) :
    (t.toUnits p = n.toInt ↔ (p = .nanosecond → firstSecondNanos ≤ n.toInt)) ∧
      (p = .nanosecond → n.toInt < firstSecondNanos →
        t.toUnits p = n.toInt + minInt64 % nanosPerSecond) := by
  have hmin := minInt64_le_toInt n
  have hmax := toInt_le_maxInt64 n
  by_cases hp : p = .nanosecond
  · subst hp
    refine ⟨⟨fun heq _ => ?_, fun hfirst => ?_⟩, fun _ => toUnits_of_lt h hmin⟩
    · by_contra hn
      have hlate := toUnits_of_lt h hmin (by omega)
      simp only [minInt64, nanosPerSecond] at hlate
      omega
    · refine toUnits_eq_of_le h hmax ?_
      have hfirst := hfirst rfl
      simp only [firstSecondNanos, Precision.unitsPerSecond, nanosPerSecond, minInt64] at hfirst ⊢
      omega
  · refine ⟨iff_of_true ?_ fun hnano => absurd hnano hp, fun hnano => absurd hnano hp⟩
    exact toUnits_eq_of_le h hmax (minInt64_le_of_coarse h hp hmin)

/-- The start of the word, counted in nanoseconds. -/
def wordStart : Instant where
  seconds := -9223372037
  nanos := 145224192
  minSeconds_le := by decide
  le_maxSeconds := by decide
  nanos_lt := by decide
  leap_at_minute_end := by decide

/-- The first nanosecond of the word comes out as many nanoseconds late as its second had left. -/
theorem wordStart_counts_late :
    ofUnits? Int64.minValue.toInt .nanosecond = some wordStart ∧
      Int64.minValue.toInt < firstSecondNanos ∧
      wordStart.toUnits .nanosecond = Int64.minValue.toInt + 145224192 := by
  have hmade : ofUnits? Int64.minValue.toInt .nanosecond = some wordStart := by decide
  have hearly : Int64.minValue.toInt < firstSecondNanos := by decide
  exact ⟨hmade, hearly, (toUnits_ofUnits? Int64.minValue .nanosecond wordStart hmade).2 rfl hearly⟩

/-- So an instant made from a count does not always have that count. -/
theorem wordStart_loses_count :
    ¬∀ (n : Int64) (p : Precision) (t : Instant),
      ofUnits? n.toInt p = some t → t.toUnits p = n.toInt := by
  intro h
  have hmade : ofUnits? Int64.minValue.toInt .nanosecond = some wordStart := by decide
  have hcount := h _ _ _ hmade
  revert hcount
  decide

end Instant

end TenantSchema.Calendar
