import TenantSchema.Calendar.Date

/-!
# Instants

A point of time in UTC: whole seconds since 1970-01-01T00:00:00 and a part of the next second.
A part of one second or more is a leap second, which stands at the end of a minute.
-/

namespace TenantSchema.Calendar

def secondsPerDay : Int := 86400

def nanosPerSecond : Nat := 1000000000

/-- First second of the supported range. -/
def minSeconds : Int := -8334601228800

/-- Last second of the supported range. -/
def maxSeconds : Int := 8210266876799

structure Instant where
  seconds : Int
  nanos : Nat
  minSeconds_le : minSeconds ≤ seconds
  le_maxSeconds : seconds ≤ maxSeconds
  nanos_lt : nanos < 2 * nanosPerSecond
  leap_at_minute_end : nanosPerSecond ≤ nanos → seconds % 60 = 59
deriving DecidableEq, Repr

namespace Instant

/-- The instant with these components, if there is one. -/
def of? (seconds : Int) (nanos : Nat) : Option Instant :=
  if h : minSeconds ≤ seconds ∧ seconds ≤ maxSeconds ∧ nanos < 2 * nanosPerSecond ∧
      (nanosPerSecond ≤ nanos → seconds % 60 = 59) then
    some ⟨seconds, nanos, h.1, h.2.1, h.2.2.1, h.2.2.2⟩
  else none

/-- Nanoseconds within the second, a leap second counting as its last nanosecond. -/
def subsecond (t : Instant) : Nat := min t.nanos (nanosPerSecond - 1)

def date (t : Instant) : Date := .ofDayNumber (t.seconds / secondsPerDay)

/-- Seconds since midnight. -/
def secondOfDay (t : Instant) : Nat := (t.seconds % secondsPerDay).toNat

def hour (t : Instant) : Nat := t.secondOfDay / 3600

def minute (t : Instant) : Nat := t.secondOfDay / 60 % 60

def second (t : Instant) : Nat := t.secondOfDay % 60

theorem of?_eq_some_iff {seconds : Int} {nanos : Nat} {t : Instant} :
    of? seconds nanos = some t ↔ t.seconds = seconds ∧ t.nanos = nanos := by
  unfold of?
  constructor
  · intro h
    split at h
    · cases h; exact ⟨rfl, rfl⟩
    · cases h
  · rintro ⟨rfl, rfl⟩
    rw [dif_pos ⟨t.minSeconds_le, t.le_maxSeconds, t.nanos_lt, t.leap_at_minute_end⟩]

/-- Earlier or equal: by seconds, then by their parts. -/
def le (a b : Instant) : Bool :=
  decide (a.seconds < b.seconds) || (a.seconds == b.seconds && decide (a.nanos ≤ b.nanos))

end Instant

end TenantSchema.Calendar
