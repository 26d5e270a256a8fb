import TenantSchema.Calendar.Instant
import TenantSchema.Number.Binary64
import TenantSchema.Number.Integer

/-!
# Timestamps

An instant as a count of units since 1970. The unit is given, or implied by the magnitude of the
count: large counts are taken for finer units.
-/

namespace TenantSchema.Calendar

open TenantSchema.Number

/-- Unit of an integer timestamp. -/
inductive Precision where
  | second
  | millisecond
  | microsecond
  | nanosecond
deriving DecidableEq, Repr

namespace Precision

def unitsPerSecond : Precision → Nat
  | .second => 1
  | .millisecond => 1000
  | .microsecond => 1000000
  | .nanosecond => 1000000000

def nanosPerUnit (p : Precision) : Nat := nanosPerSecond / p.unitsPerSecond

/-- Unit implied by the magnitude of a timestamp. -/
def ofMagnitude (magnitude : Nat) : Precision :=
  if 1000000000000000000 < magnitude then .nanosecond
  else if 1000000000000000 < magnitude then .microsecond
  else if 1000000000000 < magnitude then .millisecond
  else .second

end Precision

/-- The instant `n` units after 1970. -/
def Instant.ofUnits? (n : Int) (p : Precision) : Option Instant :=
  Instant.of? (n / p.unitsPerSecond) ((n % p.unitsPerSecond).toNat * p.nanosPerUnit)

/-- `n`, or the limit of a 64-bit word that it exceeds. -/
def saturate (n : Int) : Int := max minInt64 (min n maxInt64)

/-- Whole units since 1970, toward the past; what a 64-bit word cannot hold becomes its limit. -/
def Instant.toUnits (t : Instant) (p : Precision) : Int :=
  saturate (saturate (t.seconds * p.unitsPerSecond) + t.subsecond / p.nanosPerUnit)

/-- An integer timestamp by its magnitude. -/
def Instant.ofTimestamp? (n : Int) : Option Instant := ofUnits? n (.ofMagnitude n.natAbs)

/-- The magnitude from which a float is no timestamp. -/
def timestampLimit : Binary64 := .ofInt 9200000000000000000

/-- Seconds of a float, rounded to whole microseconds. -/
def Instant.ofFloatSeconds? (x : Binary64) : Option Instant :=
  let whole := x.toRat.floor
  let part := Binary64.ofRat (x.toRat - whole)
  let micros := roundHalfAway (Binary64.ofRat (part.toRat * 1000000)).toRat
  if 1000000 ≤ micros then Instant.of? (whole + 1) 0 else Instant.of? whole (micros.toNat * 1000)

/-- A float timestamp by its magnitude; seconds keep microseconds. -/
def Instant.ofFloatTimestamp? (x : Binary64) : Option Instant :=
  if !x.isFinite || x.magnitudeAtLeast timestampLimit then none
  else
    match Precision.ofMagnitude x.truncate.natAbs with
    | .second => ofFloatSeconds? x
    | p => ofUnits? x.truncate p

end TenantSchema.Calendar
