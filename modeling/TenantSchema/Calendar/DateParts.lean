import TenantSchema.Calendar.Instant
import TenantSchema.Number.Integer

/-!
# Parts of a date

Text yields parts of a date one at a time. A part may repeat only with the same value. From the parts
a date and a time of day are put together, and every other part has to agree with them.
-/

namespace TenantSchema.Calendar

open TenantSchema.Number

/-- Why parts make no date. -/
inductive DateFault where
  | insufficient
  | contradictory
deriving DecidableEq, Repr

structure DateParts where
  year : Option Int := none
  century : Option Int := none
  yearOfCentury : Option Int := none
  /-- The year that the week is counted in. -/
  isoYear : Option Int := none
  isoYearOfCentury : Option Int := none
  quarter : Option Int := none
  month : Option Int := none
  day : Option Int := none
  ordinal : Option Int := none
  weekFromSunday : Option Int := none
  weekFromMonday : Option Int := none
  isoWeek : Option Int := none
  /-- Monday is 0. -/
  weekday : Option Int := none
  /-- 0 before noon, 1 after. -/
  halfDay : Option Int := none
  hourOfHalf : Option Int := none
  minute : Option Int := none
  second : Option Int := none
  nanosecond : Option Int := none
  timestamp : Option Int := none
  /-- Seconds east of UTC. -/
  offset : Option Int := none
deriving DecidableEq, Repr

/-- Sets a part within its limits; a different earlier value is a contradiction. -/
def putPart? (lo hi : Int) (old : Option Int) (v : Int) : Option (Option Int) :=
  if v < lo ∨ hi < v then none
  else
    match old with
    | none => some (some v)
    | some w => if w = v then some (some v) else none

namespace DateParts

def putYear? (p : DateParts) (v : Int) : Option DateParts :=
  (putPart? (-2147483648) 2147483647 p.year v).map fun x => { p with year := x }

def putCentury? (p : DateParts) (v : Int) : Option DateParts :=
  (putPart? 0 2147483647 p.century v).map fun x => { p with century := x }

def putYearOfCentury? (p : DateParts) (v : Int) : Option DateParts :=
  (putPart? 0 99 p.yearOfCentury v).map fun x => { p with yearOfCentury := x }

def putIsoYear? (p : DateParts) (v : Int) : Option DateParts :=
  (putPart? (-2147483648) 2147483647 p.isoYear v).map fun x => { p with isoYear := x }

def putIsoYearOfCentury? (p : DateParts) (v : Int) : Option DateParts :=
  (putPart? 0 99 p.isoYearOfCentury v).map fun x => { p with isoYearOfCentury := x }

def putQuarter? (p : DateParts) (v : Int) : Option DateParts :=
  (putPart? 1 4 p.quarter v).map fun x => { p with quarter := x }

def putMonth? (p : DateParts) (v : Int) : Option DateParts :=
  (putPart? 1 12 p.month v).map fun x => { p with month := x }

def putDay? (p : DateParts) (v : Int) : Option DateParts :=
  (putPart? 1 31 p.day v).map fun x => { p with day := x }

def putOrdinal? (p : DateParts) (v : Int) : Option DateParts :=
  (putPart? 1 366 p.ordinal v).map fun x => { p with ordinal := x }

def putWeekFromSunday? (p : DateParts) (v : Int) : Option DateParts :=
  (putPart? 0 53 p.weekFromSunday v).map fun x => { p with weekFromSunday := x }

def putWeekFromMonday? (p : DateParts) (v : Int) : Option DateParts :=
  (putPart? 0 53 p.weekFromMonday v).map fun x => { p with weekFromMonday := x }

def putIsoWeek? (p : DateParts) (v : Int) : Option DateParts :=
  (putPart? 1 53 p.isoWeek v).map fun x => { p with isoWeek := x }

def putWeekday? (p : DateParts) (v : Int) : Option DateParts :=
  (putPart? 0 6 p.weekday v).map fun x => { p with weekday := x }

def putHalfDay? (p : DateParts) (v : Int) : Option DateParts :=
  (putPart? 0 1 p.halfDay v).map fun x => { p with halfDay := x }

def putHour12? (p : DateParts) (v : Int) : Option DateParts :=
  if v < 1 ∨ 12 < v then none
  else (putPart? 0 11 p.hourOfHalf (v % 12)).map fun x => { p with hourOfHalf := x }

def putHour? (p : DateParts) (v : Int) : Option DateParts := do
  let half ← putPart? 0 1 p.halfDay (v / 12)
  let hour ← putPart? 0 11 p.hourOfHalf (v % 12)
  return { p with halfDay := half, hourOfHalf := hour }

def putMinute? (p : DateParts) (v : Int) : Option DateParts :=
  (putPart? 0 59 p.minute v).map fun x => { p with minute := x }

def putSecond? (p : DateParts) (v : Int) : Option DateParts :=
  (putPart? 0 60 p.second v).map fun x => { p with second := x }

def putNanosecond? (p : DateParts) (v : Int) : Option DateParts :=
  (putPart? 0 999999999 p.nanosecond v).map fun x => { p with nanosecond := x }

def putTimestamp? (p : DateParts) (v : Int) : Option DateParts :=
  (putPart? minInt64 maxInt64 p.timestamp v).map fun x => { p with timestamp := x }

def putOffset? (p : DateParts) (v : Int) : Option DateParts :=
  (putPart? (-2147483648) 2147483647 p.offset v).map fun x => { p with offset := x }

/-- An absent part agrees with everything. -/
def agrees (part : Option Int) (v : Int) : Bool := part.all (· == v)

/-- The year from its century and the rest; the rest alone is taken for 1970 to 2069. -/
def resolvedYear (full century rest : Option Int) : Except DateFault (Option Int) :=
  match full, century, rest with
  | y, none, none => .ok y
  | some y, q, r =>
    if 0 ≤ y ∧ agrees q (y / 100) ∧ agrees r (y % 100) then .ok (some y)
    else .error .contradictory
  | none, some q, some r =>
    if q * 100 + r ≤ 2147483647 then .ok (some (q * 100 + r)) else .error .contradictory
  | none, none, some r => .ok (some (if r < 70 then r + 2000 else r + 1900))
  | none, some _, none => .error .insufficient

/-- Every part about a year agrees with it; only years from zero on have a century. -/
def agreesWithYear (full century rest : Option Int) (year : Int) : Bool :=
  agrees full year &&
  if 0 ≤ year then agrees century (year / 100) && agrees rest (year % 100)
  else century.isNone && rest.isNone

/-- Every part about the date agrees with it. -/
def agreesWith (p : DateParts) (d : Date) : Bool :=
  agreesWithYear p.year p.century p.yearOfCentury d.year &&
  agreesWithYear p.isoYear none p.isoYearOfCentury d.isoYear &&
  agrees p.quarter d.quarter && agrees p.month d.month && agrees p.day d.day &&
  agrees p.weekday d.weekday && agrees p.ordinal d.ordinal &&
  agrees p.weekFromSunday (d.weekFrom sunday) && agrees p.weekFromMonday (d.weekFrom monday) &&
  agrees p.isoWeek d.isoWeek

/-- The date of a day of the week in a week of the year. -/
def dateOfWeek (year week weekday : Int) (start : Nat) : Except DateFault Date :=
  match Date.ofOrdinal? year 1 with
  | none => .error .contradictory
  | some first =>
    let weekStart := 1 + (Date.daysSince start first.weekday : Int)
    let ordinal := weekStart + (week - 1) * 7 + Date.daysSince weekday.toNat start
    if ordinal ≤ 0 then .error .contradictory
    else
      match Date.ofOrdinal? year ordinal.toNat with
      | some d => .ok d
      | none => .error .contradictory

def found : Option Date → Except DateFault Date
  | some d => .ok d
  | none => .error .contradictory

/-- The date that the parts determine. -/
def date (p : DateParts) : Except DateFault Date := do
  let year ← resolvedYear p.year p.century p.yearOfCentury
  let isoYear ← resolvedYear p.isoYear none p.isoYearOfCentury
  let d ←
    match year, p.month, p.day, p.ordinal, p.weekFromSunday, p.weekFromMonday, isoYear, p.isoWeek,
        p.weekday with
    | some y, some m, some d, _, _, _, _, _, _ => found (Date.of? y m.toNat d.toNat)
    | some y, _, _, some o, _, _, _, _, _ => found (Date.ofOrdinal? y o.toNat)
    | some y, _, _, _, some w, _, _, _, some wd => dateOfWeek y w wd sunday
    | some y, _, _, _, _, some w, _, _, some wd => dateOfWeek y w wd monday
    | _, _, _, _, _, _, some y, some w, some wd => found (Date.ofIsoWeek? y w wd.toNat)
    | _, _, _, _, _, _, _, _, _ => throw .insufficient
  if p.agreesWith d then return d else throw .contradictory

/-- Seconds since midnight and nanoseconds; second 60 is the leap second of second 59. -/
def timeOfDay (p : DateParts) : Except DateFault (Nat × Nat) :=
  match p.halfDay, p.hourOfHalf, p.minute with
  | some half, some hour, some minute =>
    let leap := p.second == some 60
    let second := if leap then 59 else p.second.getD 0
    if p.second.isNone && p.nanosecond.isSome then .error .insufficient
    else
      .ok (((half * 12 + hour) * 3600 + minute * 60 + second).toNat,
        (p.nanosecond.getD 0).toNat + if leap then nanosPerSecond else 0)
  | _, _, _ => .error .insufficient

/-- Seconds since 1970 of a date and a time of day. -/
def secondsOf (d : Date) (secondOfDay : Nat) : Int := d.dayNumber * secondsPerDay + secondOfDay

/-- Fills in what a timestamp tells about the local date and time. -/
def withTimestamp? (p : DateParts) (timestamp offset : Int) : Option DateParts := do
  let local? := Instant.of? (timestamp + offset) 0
  let t ← local?
  -- a leap second may be counted as the first second of the next minute
  let leap := p.second == some 60
  let t ← if leap && t.second == 0 then Instant.of? (t.seconds - 1) 0 else some t
  if leap && t.second != 59 then none
  let p ← if leap then some p else p.putSecond? t.second
  let p ← p.putYear? t.date.year
  let p ← p.putOrdinal? t.date.ordinal
  let p ← p.putHour? t.hour
  p.putMinute? t.minute

/-- Local seconds since 1970 and nanoseconds, for an offset in seconds east of UTC. -/
def localTime (p : DateParts) (offset : Int) : Except DateFault (Int × Nat) :=
  match p.date, p.timeOfDay, p.timestamp with
  | .ok d, .ok (second, nanos), none => .ok (secondsOf d second, nanos)
  | .ok d, .ok (second, nanos), some given =>
    let actual := secondsOf d second - offset
    if given = actual ∨ (nanosPerSecond ≤ nanos ∧ given = actual + 1) then
      .ok (secondsOf d second, nanos)
    else .error .contradictory
  | .error fault, _, none => .error fault
  | _, .error fault, none => .error fault
  | .error .contradictory, _, some _ => .error .contradictory
  | _, .error .contradictory, some _ => .error .contradictory
  | _, _, some given =>
    match p.withTimestamp? given offset with
    | none => .error .contradictory
    | some p => do
      let d ← p.date
      let (second, nanos) ← p.timeOfDay
      return (secondsOf d second, nanos)

/-- The instant of parts that carry an offset; a timestamp alone stands for UTC. -/
def instant? (p : DateParts) : Option Instant := do
  let offset ←
    match p.offset, p.timestamp with
    | some offset, _ => some offset
    | none, some _ => some 0
    | none, none => none
  let (seconds, nanos) ← (p.localTime offset).toOption
  if offset ≤ -secondsPerDay ∨ secondsPerDay ≤ offset then none
  else Instant.of? (seconds - offset) nanos

/-- The instant of parts that are taken for UTC. -/
def instantUtc? (p : DateParts) : Option Instant := do
  let (seconds, nanos) ← (p.localTime 0).toOption
  Instant.of? seconds nanos

/-- Midnight of the date that the parts determine. -/
def midnight? (p : DateParts) : Option Instant := do
  let d ← p.date.toOption
  Instant.of? (secondsOf d 0) 0

end DateParts

end TenantSchema.Calendar
