import TenantSchema.Proofs.TimestampCounts

/-!
# The order of counts

Counting units keeps the order of instants, also where a count is bent into the 64-bit word, with
one exception. An instant whose second begins before the first nanosecond of the word is counted from
the start of the word on, so that it overtakes later instants with a smaller part of a second.
-/

namespace TenantSchema.Calendar

open TenantSchema.Number

theorem saturate_mono {m n : Int} (h : m ≤ n) : saturate m ≤ saturate n := by
  unfold saturate
  omega

/-- Something that is added to a number above the least one may as well be added before bending. -/
theorem saturate_saturate_add {n r : Int} (hn : minInt64 ≤ n) (hr : 0 ≤ r) :
    saturate (saturate n + r) = saturate (n + r) := by
  unfold saturate minInt64 maxInt64 at *
  omega

namespace Instant

variable {a b t : Instant} {p : Precision}

/-- Whole units since 1970, however many. -/
def exactUnits (t : Instant) (p : Precision) : Int :=
  t.seconds * p.unitsPerSecond + (t.subsecond / p.nanosPerUnit : Nat)

/-- The second of the instant begins before the first nanosecond of a 64-bit word. -/
def BeginsEarly (t : Instant) : Prop := t.seconds * nanosPerSecond < minInt64

theorem le_iff : a.le b = true ↔
    a.seconds < b.seconds ∨ a.seconds = b.seconds ∧ a.nanos ≤ b.nanos := by
  simp [le]

theorem subsecond_lt (t : Instant) : t.subsecond < nanosPerSecond := by
  unfold subsecond nanosPerSecond
  omega

/-- The rest of a second is less than the units of a second. -/
theorem subsecond_div_lt (t : Instant) (p : Precision) :
    t.subsecond / p.nanosPerUnit < p.unitsPerSecond := by
  rw [Nat.div_lt_iff_lt_mul p.nanosPerUnit_pos, p.unitsPerSecond_mul_nanosPerUnit]
  exact t.subsecond_lt

theorem exactUnits_mono (h : a.le b = true) : a.exactUnits p ≤ b.exactUnits p := by
  unfold exactUnits
  rcases le_iff.mp h with hlt | ⟨heq, hnanos⟩
  · have hrest : ((a.subsecond / p.nanosPerUnit : Nat) : Int) < p.unitsPerSecond :=
      Int.ofNat_lt.mpr (a.subsecond_div_lt p)
    have hnonneg : (0 : Int) ≤ (b.subsecond / p.nanosPerUnit : Nat) := Int.natCast_nonneg _
    calc a.seconds * p.unitsPerSecond + (a.subsecond / p.nanosPerUnit : Nat)
        ≤ a.seconds * p.unitsPerSecond + p.unitsPerSecond :=
        Int.add_le_add_left (Int.le_of_lt hrest) _
      _ = (a.seconds + 1) * p.unitsPerSecond := by rw [Int.add_mul, Int.one_mul]
      _ ≤ b.seconds * p.unitsPerSecond := Int.mul_le_mul_of_nonneg_right hlt (Int.natCast_nonneg _)
      _ ≤ b.seconds * p.unitsPerSecond + (b.subsecond / p.nanosPerUnit : Nat) :=
        Int.le_add_of_nonneg_right hnonneg
  · have hsub : a.subsecond ≤ b.subsecond := by
      unfold subsecond
      omega
    rw [heq]
    exact Int.add_le_add_left (Int.ofNat_le.mpr (Nat.div_le_div_right hsub)) _

/-- Only nanoseconds are too many for the word before the calendar begins. -/
theorem minInt64_le_of_not_early (h : ¬(p = .nanosecond ∧ t.BeginsEarly)) :
    minInt64 ≤ t.seconds * p.unitsPerSecond := by
  have hfirst := t.minSeconds_le
  unfold minSeconds at hfirst
  cases p with
  | nanosecond => exact Int.not_lt.mp fun hlt => h ⟨rfl, hlt⟩
  | second | millisecond | microsecond =>
    simp only [Precision.unitsPerSecond, minInt64]
    omega

theorem toUnits_of_not_early (h : ¬(p = .nanosecond ∧ t.BeginsEarly)) :
    t.toUnits p = saturate (t.exactUnits p) := by
  unfold toUnits
  rw [← Int.natCast_ediv, saturate_saturate_add (minInt64_le_of_not_early h) (Int.natCast_nonneg _)]
  rfl

/-- An early second counts as if it began with the word. -/
theorem toUnits_of_early (h : t.BeginsEarly) : t.toUnits .nanosecond = minInt64 + t.subsecond := by
  have hrest := t.subsecond_lt
  unfold BeginsEarly at h
  have hunit : Precision.nanosecond.nanosPerUnit = 1 := rfl
  unfold toUnits
  rw [hunit]
  simp only [Precision.unitsPerSecond, nanosPerSecond, saturate, minInt64, maxInt64] at *
  omega

/-- Instants stay in order, and so do their seconds. -/
theorem BeginsEarly.of_le (hb : b.BeginsEarly) (h : a.le b = true) : a.BeginsEarly := by
  unfold BeginsEarly nanosPerSecond at *
  have hle := le_iff.mp h
  omega

/-- The instant begins early, and counted from the start of the word it comes after the other. -/
def Overtakes (a b : Instant) : Prop :=
  a.BeginsEarly ∧ max minInt64 (b.seconds * nanosPerSecond) + b.subsecond < minInt64 + a.subsecond

theorem nanoseconds_le_iff_of_early (ha : a.BeginsEarly) :
    a.toUnits .nanosecond ≤ b.toUnits .nanosecond ↔ ¬ a.Overtakes b := by
  have hrest := a.subsecond_lt
  unfold Overtakes
  rw [toUnits_of_early ha, and_iff_right ha]
  by_cases hb : b.BeginsEarly
  · rw [toUnits_of_early hb]
    unfold BeginsEarly at hb
    omega
  · have hexact : b.exactUnits .nanosecond = b.seconds * nanosPerSecond + b.subsecond := by
      have hunit : Precision.nanosecond.nanosPerUnit = 1 := rfl
      unfold exactUnits
      rw [hunit, Nat.div_one]
      rfl
    rw [toUnits_of_not_early fun hearly => hb hearly.2, hexact]
    unfold BeginsEarly at hb
    unfold saturate nanosPerSecond minInt64 maxInt64 at *
    omega

/-- Of two instants in order the counts are in order too, those included that the word cannot hold,
unless nanoseconds are counted and the earlier instant overtakes the later one. -/
theorem toUnits_le_iff (p : Precision) (a b : Instant) (h : a.le b = true) :
    a.toUnits p ≤ b.toUnits p ↔ ¬(p = .nanosecond ∧ a.Overtakes b) := by
  by_cases hearly : p = .nanosecond ∧ a.BeginsEarly
  · obtain ⟨rfl, ha⟩ := hearly
    rw [nanoseconds_le_iff_of_early ha]
    simp
  · have hb : ¬(p = .nanosecond ∧ b.BeginsEarly) := fun hb => hearly ⟨hb.1, hb.2.of_le h⟩
    rw [toUnits_of_not_early hearly, toUnits_of_not_early hb]
    apply iff_of_true
    · exact saturate_mono (exactUnits_mono h)
    · exact fun hover => hearly ⟨hover.1, hover.2.1⟩

/-- Within a second that ends before the word. -/
def halfBefore : Instant where
  seconds := -9223372039
  nanos := 500000000
  minSeconds_le := by decide
  le_maxSeconds := by decide
  nanos_lt := by decide
  leap_at_minute_end := by decide

theorem wholeSecond_nanos_lt : 0 < 2 * nanosPerSecond := by decide

/-- The start of the second after it. -/
def wholeBefore : Instant where
  seconds := -9223372038
  nanos := 0
  minSeconds_le := by decide
  le_maxSeconds := by decide
  nanos_lt := wholeSecond_nanos_lt
  leap_at_minute_end := by decide

/-- A whole second has nothing to overtake with, and stays before the start of the word. -/
theorem wholeBefore_in_order :
    wholeBefore.le wordStart = true ∧
      wholeBefore.toUnits .nanosecond ≤ wordStart.toUnits .nanosecond := by
  have hle : wholeBefore.le wordStart = true := by decide
  have hbehind : ¬ wholeBefore.Overtakes wordStart := fun h => absurd h.2 (by decide)
  exact ⟨hle, (toUnits_le_iff .nanosecond _ _ hle).mpr fun h => hbehind h.2⟩

/-- The later one of these two is counted as the least word, and the earlier one is not. -/
theorem halfBefore_out_of_order :
    ¬∀ (p : Precision) (a b : Instant), a.le b = true → a.toUnits p ≤ b.toUnits p := by
  intro h
  have hcounts := h .nanosecond halfBefore wholeBefore (by decide)
  revert hcounts
  decide

end Instant

end TenantSchema.Calendar
