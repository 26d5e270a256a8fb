import TenantSchema.Number.Binary64
import TenantSchema.Number.Integer

/-!
# Durations

A signed span of time in nanoseconds. Its limits are those of a count of milliseconds in a 64-bit
word, so a span may exceed what a 64-bit word of nanoseconds holds.
-/

namespace TenantSchema

open TenantSchema.Number

/-- Magnitude of the longest span. -/
def maxDuration : Int := maxInt64 * 1000000

structure Duration where
  nanos : Int
  neg_max_le : -maxDuration ≤ nanos
  le_max : nanos ≤ maxDuration
deriving DecidableEq, Repr

namespace Duration

/-! ### Units in nanoseconds -/

def micro : Int := 1000
def milli : Int := 1000 * micro
def second : Int := 1000 * milli
def minute : Int := 60 * second
def hour : Int := 60 * minute
def day : Int := 24 * hour
def week : Int := 7 * day
/-- Thirty days. -/
def month : Int := 30 * day
/-- Twelve months. -/
def year : Int := 12 * month

def ofNanos? (n : Int) : Option Duration :=
  if h : -maxDuration ≤ n ∧ n ≤ maxDuration then some ⟨n, h.1, h.2⟩ else none

def ofSeconds? (n : Int) : Option Duration := ofNanos? (n * second)

def zero : Duration := ⟨0, by decide, by decide⟩

/-- Whole seconds, toward zero. -/
def seconds (d : Duration) : Int := d.nanos.tdiv second

/-- Nanoseconds beyond the whole seconds, with the sign of the span. -/
def subsecond (d : Duration) : Int := d.nanos.tmod second

theorem ofNanos?_nanos (d : Duration) : ofNanos? d.nanos = some d :=
  dif_pos ⟨d.neg_max_le, d.le_max⟩

theorem nanos_of_ofNanos? {n : Int} {d : Duration} (h : ofNanos? n = some d) : d.nanos = n := by
  unfold ofNanos? at h
  split at h
  · cases h; rfl
  · cases h

theorem seconds_add_subsecond (d : Duration) : d.seconds * second + d.subsecond = d.nanos := by
  rw [seconds, subsecond, Int.mul_comm]
  exact Int.mul_tdiv_add_tmod d.nanos second

/-- The magnitude of seconds from which a float is no span. -/
def floatLimit : Binary64 := .ofInt 9200000000000000

/-- Seconds of a float, rounded to whole microseconds. -/
def ofFloatSeconds? (x : Binary64) : Option Duration :=
  if !x.isFinite || x.magnitudeAtLeast floatLimit then none
  else
    let part := Binary64.ofRat (x.toRat - x.truncate)
    let micros := roundHalfAway (Binary64.ofRat (part.toRat * 1000000)).toRat
    (ofSeconds? x.truncate).bind fun whole => ofNanos? (whole.nanos + micros * micro)

end Duration

end TenantSchema
