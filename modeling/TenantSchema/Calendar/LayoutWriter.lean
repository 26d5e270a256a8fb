import TenantSchema.Calendar.Instant
import TenantSchema.Calendar.Layout
import TenantSchema.Number.Integer
import TenantSchema.Number.Power

/-!
# Writing dates by a layout

An instant is written in UTC. A year outside 0 to 9999 carries a sign, and a leap second shows as
second 60.
-/

namespace TenantSchema.Calendar

open TenantSchema.Number

/-- `n` filled up to `width`. -/
def padded (padding : Padding) (width n : Nat) : List Char :=
  let digits := Nat.toDigits 10 n
  match padding with
  | .none => digits
  | .zero => List.replicate (width - digits.length) '0' ++ digits
  | .space => List.replicate (width - digits.length) ' ' ++ digits

/-- `n` with its sign, plus included, filled up to `width` behind the sign or, by blanks, before it. -/
def paddedSigned (padding : Padding) (width : Nat) (n : Int) : List Char :=
  let sign := if n < 0 then '-' else '+'
  match padding with
  | .zero => sign :: padded .zero width n.natAbs
  | .none => sign :: padded .none 0 n.natAbs
  | .space =>
    let text := sign :: padded .none 0 n.natAbs
    List.replicate (width + 1 - text.length) ' ' ++ text

/-- Four digits of a common year, else a signed one. -/
def writeYear (padding : Padding) (year : Int) : List Char :=
  if 0 ≤ year ∧ year < 10000 then padded padding 4 year.toNat else paddedSigned padding 4 year

/-- The century takes one byte, of which the tens are a digit or a character after the digits. -/
def writeCentury (padding : Padding) (year : Int) : List Char :=
  let n := (year / 100 % 256).toNat
  let ones := Char.ofNat ('0'.toNat + n % 10)
  match padding, n / 10 with
  | .none, 0 => [ones]
  | .space, 0 => [' ', ones]
  | _, tens => [Char.ofNat ('0'.toNat + tens), ones]

/-- Hour of a twelve-hour clock. -/
def clockHour (hour : Nat) : Nat := if hour % 12 = 0 then 12 else hour % 12

namespace NumericPart

def write (t : Instant) (padding : Padding) : NumericPart → List Char
  | .year => writeYear padding t.date.year
  | .century => writeCentury padding t.date.year
  | .yearOfCentury => padded padding 2 (t.date.year % 100).toNat
  | .isoYear => writeYear padding t.date.isoYear
  | .isoYearOfCentury => padded padding 2 (t.date.isoYear % 100).toNat
  | .quarter => padded padding 1 t.date.quarter
  | .month => padded padding 2 t.date.month
  | .day => padded padding 2 t.date.day
  | .weekFromSunday => padded padding 2 (t.date.weekFrom sunday)
  | .weekFromMonday => padded padding 2 (t.date.weekFrom monday)
  | .isoWeek => padded padding 2 t.date.isoWeek
  | .weekdayFromSunday => padded padding 1 (Date.daysSince t.date.weekday sunday)
  | .weekdayFromMonday => padded padding 1 (t.date.weekday + 1)
  | .ordinal => padded padding 3 t.date.ordinal
  | .hour => padded padding 2 t.hour
  | .hour12 => padded padding 2 (clockHour t.hour)
  | .minute => padded padding 2 t.minute
  | .second => padded padding 2 (t.second + t.nanos / nanosPerSecond)
  | .nanosecond => padded padding 9 (t.nanos % nanosPerSecond)
  | .timestamp => writeTimestamp padding t.seconds
where
  writeTimestamp (padding : Padding) (n : Int) : List Char :=
    if n < 0 then
      match padding with
      | .none => intDigits n
      | .zero => '-' :: padded .zero 8 n.natAbs
      | .space =>
        List.replicate (9 - (intDigits n).length) ' ' ++ intDigits n
    else padded padding 9 n.toNat

end NumericPart

/-- The first digits of a fraction of the second. -/
def writeDigits (nanos digits : Nat) : List Char :=
  padded .zero digits (nanos / tenPow (9 - digits))

/-- UTC as an offset. -/
def OffsetStyle.write : OffsetStyle → String
  | .plain => "+0000"
  | .colon => "+00:00"
  | .seconds => "+00:00:00"
  | .hours => "+00"

/-- A fraction of the second after a point; without a length it takes three, six or nine digits, and
nothing at all for a whole second. -/
def writeFraction (nanos : Nat) : Option Nat → List Char
  | some digits => '.' :: writeDigits nanos digits
  | none =>
    if nanos = 0 then []
    else if nanos % 1000000 = 0 then '.' :: padded .zero 3 (nanos / 1000000)
    else if nanos % 1000 = 0 then '.' :: padded .zero 6 (nanos / 1000)
    else '.' :: padded .zero 9 nanos

def nameAt (names : List String) (i : Nat) (long : Bool) : List Char :=
  let name := (names.getD i "").toList
  if long then name else name.take 3

/-- The text of one item; an item that is for reading only has none. -/
def LayoutItem.write? (t : Instant) : LayoutItem → Option (List Char)
  | .literal c => some [c]
  | .blank c => some [c]
  | .gap => some []
  | .number part padding => some (part.write t padding)
  | .monthName long => some (nameAt monthNames (t.date.month - 1) long)
  | .weekdayName long => some (nameAt weekdayNames t.date.weekday long)
  | .halfDay upper =>
    some <|
      match decide (12 ≤ t.hour), upper with
      | false, false => ['a', 'm']
      | false, true => ['A', 'M']
      | true, false => ['p', 'm']
      | true, true => ['P', 'M']
  | .fraction digits => some (writeFraction (t.nanos % nanosPerSecond) digits)
  | .fractionDigits digits => some (writeDigits (t.nanos % nanosPerSecond) digits)
  | .timeMark => some ['T']
  | .zoneName => some "UTC".toList
  | .offset style => some style.write.toList
  | .zuluOffset => some OffsetStyle.colon.write.toList
  | .lenientOffset => none

/-- The instant by a layout, if the layout can be written. -/
def Instant.format? (t : Instant) (layout : String) : Option String := do
  let items ← layoutItems? layout.toList
  let parts ← items.mapM (·.write? t)
  return String.ofList parts.flatten

end TenantSchema.Calendar
