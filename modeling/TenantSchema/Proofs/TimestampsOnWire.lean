import TenantSchema.Proofs.Redecoding
import TenantSchema.Proofs.TimestampCounts
import TenantSchema.Proofs.WireRoundTrip

/-!
# Instants of whole seconds on the wire

An instant of whole seconds is written as the number of its seconds, and a number is read in the unit
that its magnitude implies. So an instant comes back as far from 1970 as numbers are taken for
seconds. The calendar reaches eight times further, and there seconds are taken for thousandths.
-/

namespace TenantSchema

open TenantSchema.Number TenantSchema.Calendar

namespace Calendar

/-! ### The unit of a count of seconds -/

/-- The greatest magnitude of a number that is taken for seconds. -/
def secondsLimit : Nat := 1000000000000

namespace Precision

variable {magnitude : Nat}

theorem ofMagnitude_of_le (h : magnitude ≤ secondsLimit) : ofMagnitude magnitude = .second := by
  unfold secondsLimit at h
  unfold ofMagnitude
  rw [if_neg (by omega), if_neg (by omega), if_neg (by omega)]

theorem ofMagnitude_of_gt (h : secondsLimit < magnitude) (hle : magnitude ≤ 1000 * secondsLimit) :
    ofMagnitude magnitude = .millisecond := by
  unfold secondsLimit at h hle
  unfold ofMagnitude
  rw [if_neg (by omega), if_neg (by omega), if_pos (by omega)]

end Precision

namespace Instant

variable (i : Instant)

theorem natAbs_seconds_le : i.seconds.natAbs ≤ 1000 * secondsLimit := by
  have hmin := i.minSeconds_le
  have hmax := i.le_maxSeconds
  unfold minSeconds at hmin
  unfold maxSeconds at hmax
  unfold secondsLimit
  omega

/-- As many thousandths of a second from 1970 as `i` is seconds. -/
def thousandth : Instant where
  seconds := i.seconds / 1000
  nanos := (i.seconds % 1000).toNat * 1000000
  minSeconds_le := by
    have hmin := i.minSeconds_le
    unfold minSeconds at *
    omega
  le_maxSeconds := by
    have hmax := i.le_maxSeconds
    unfold maxSeconds at *
    omega
  nanos_lt := by
    unfold nanosPerSecond
    omega
  leap_at_minute_end hleap := by
    unfold nanosPerSecond at hleap
    omega

theorem ofUnits?_second (h : i.nanos = 0) : ofUnits? i.seconds .second = some i := by
  refine of?_eq_some_iff.mpr ⟨?_, ?_⟩
  · simp [Precision.unitsPerSecond]
  · simp [Precision.unitsPerSecond, h]

theorem ofUnits?_millisecond : ofUnits? i.seconds .millisecond = some i.thousandth :=
  of?_eq_some_iff.mpr ⟨rfl, rfl⟩

/-- What the seconds of an instant stand for as a number without a unit. -/
theorem ofTimestamp?_seconds (h : i.nanos = 0) :
    ofTimestamp? i.seconds =
      some (if i.seconds.natAbs ≤ secondsLimit then i else i.thousandth) := by
  unfold ofTimestamp?
  by_cases hnear : i.seconds.natAbs ≤ secondsLimit
  · rw [if_pos hnear, Precision.ofMagnitude_of_le hnear, i.ofUnits?_second h]
  · rw [if_neg hnear, Precision.ofMagnitude_of_gt (by omega) i.natAbs_seconds_le,
      i.ofUnits?_millisecond]

/-- Only the two seconds around 1970 are their own thousandths. -/
theorem thousandth_ne (h : secondsLimit < i.seconds.natAbs) : i.thousandth ≠ i := by
  intro heq
  have hseconds : i.seconds / 1000 = i.seconds := congrArg Instant.seconds heq
  unfold secondsLimit at h
  omega

/-- The calendar lies within a signed word. -/
theorem ofWire_toWire (h : i.nanos = 0) :
    ∃ k : Int64, k.toInt = i.seconds ∧ Input.ofWire i.toWire = .value (.int k) := by
  have hmin := i.minSeconds_le
  have hmax := i.le_maxSeconds
  have hwire : i.toWire = wireInteger i.seconds := if_pos h
  rw [hwire]
  exact Input.ofWire_wireInteger (Int.le_trans (by decide) hmin) (Int.le_trans hmax (by decide))

end Instant

end Calendar

/-! ### Dates -/

namespace DatetimeType

variable (t : DatetimeType)

theorem validate_of_decode {input : Input} {v : Value} (h : t.decode input = .ok v) :
    validate v = .ok () := by
  rcases of_decode h with rfl | ⟨i, rfl⟩ <;> rfl

theorem run_decode (source : Source) {τ : Type} [DictionarySource τ] (w : World τ) :
    ((FieldType.element (.datetime t)).decode source : Decoding τ Value).run w =
      (t.decode source.input, w) :=
  FieldType.run_decodeBy_element (fun _ => rfl) (fun _ => rfl) (fun _ => t.validate_of_decode) w

theorem decode_toWire (i : Instant) (h : i.nanos = 0) :
    t.decode (.ofWire i.toWire) =
      .ok (.datetime (if i.seconds.natAbs ≤ secondsLimit then i else i.thousandth)) := by
  obtain ⟨k, hk, hwire⟩ := i.ofWire_toWire h
  rw [hwire]
  show ofTimestamp (Instant.ofTimestamp? k.toInt) = _
  rw [hk, i.ofTimestamp?_seconds h]
  rfl

end DatetimeType

/-- An instant of whole seconds comes back from the wire, under every date type, exactly if it is no
further than `secondsLimit` seconds from 1970. Any other comes back as its thousandth. -/
theorem whole_seconds_survive_wire_iff (t : DatetimeType) (i : Instant) (hwhole : i.nanos = 0)
    {τ : Type} [DictionarySource τ] (w : World τ) :
    (((FieldType.element (.datetime t)).decode (.wire (Value.datetime i).toWire) :
        Decoding τ Value).run w = (.ok (.datetime i), w) ↔ i.seconds.natAbs ≤ secondsLimit) ∧
      (secondsLimit < i.seconds.natAbs →
        ((FieldType.element (.datetime t)).decode (.wire (Value.datetime i).toWire) :
          Decoding τ Value).run w = (.ok (.datetime i.thousandth), w)) := by
  have hback : t.decode (Source.input (.wire (Value.datetime i).toWire)) = _ :=
    t.decode_toWire i hwhole
  rw [t.run_decode, hback]
  by_cases hnear : i.seconds.natAbs ≤ secondsLimit
  · rw [if_pos hnear]
    exact ⟨iff_of_true rfl hnear, fun hfar => absurd hnear (by omega)⟩
  · rw [if_neg hnear]
    refine ⟨iff_of_false (fun hsame => ?_) hnear, fun _ => rfl⟩
    have hsame := Value.datetime.inj (Except.ok.inj (congrArg Prod.fst hsame))
    exact i.thousandth_ne (by omega) hsame

/-- The earliest instant that comes back. -/
def earliestKept : Instant where
  seconds := -1000000000000
  nanos := 0
  minSeconds_le := by decide
  le_maxSeconds := by decide
  nanos_lt := by decide
  leap_at_minute_end := by decide

theorem earliest_kept_survives_wire :
    earliestKept.nanos = 0 ∧
      ((FieldType.element (.datetime ⟨some "%Y"⟩)).decode
        (.wire (Value.datetime earliestKept).toWire)).run noDictionaries =
          (.ok (.datetime earliestKept), noDictionaries) :=
  ⟨rfl, (whole_seconds_survive_wire_iff ⟨some "%Y"⟩ earliestKept rfl noDictionaries).1.mpr
    (by decide)⟩

/-- The first second after 1970 that is lost. -/
def firstLost : Instant where
  seconds := 1000000000001
  nanos := 0
  minSeconds_le := by decide
  le_maxSeconds := by decide
  nanos_lt := by decide
  leap_at_minute_end := by decide

/-- It comes back as an instant of the year 2001. -/
theorem first_lost_becomes_thousandth :
    ¬(∀ (t : DatetimeType) (i : Instant), i.nanos = 0 →
        (((FieldType.element (.datetime t)).decode (.wire (Value.datetime i).toWire)).run
          noDictionaries).1 = .ok (.datetime i)) ∧
      (((FieldType.element (.datetime ⟨none⟩)).decode
        (.wire (Value.datetime firstLost).toWire)).run noDictionaries).1 =
          .ok (.datetime firstLost.thousandth) := by
  have hback : (((FieldType.element (.datetime ⟨none⟩)).decode
      (.wire (Value.datetime firstLost).toWire)).run noDictionaries).1 =
        .ok (.datetime firstLost.thousandth) := by rfl
  refine ⟨fun h => ?_, hback⟩
  have hsame := hback.symm.trans (h ⟨none⟩ firstLost rfl)
  exact firstLost.thousandth_ne (by decide) (Value.datetime.inj (Except.ok.inj hsame))

end TenantSchema
