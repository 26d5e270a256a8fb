import TenantSchema.Calendar.DateParts
import TenantSchema.Calendar.Layout
import TenantSchema.Number.Power
import TenantSchema.Text.Blank

/-!
# Reading dates by a layout

Numbers may have fewer digits than their width and blanks before them; a blank of the layout matches
any run of blanks, also none; names ignore case. Two internet date formats have readers of their own.
-/

namespace TenantSchema.Calendar

open TenantSchema.Number

/-- At least `least` and at most `most` digits. -/
def takeNumber? (least : Nat) (most : Option Nat) (cs : List Char) : Option (Int × List Char) :=
  let window := match most with
    | some n => cs.take n
    | none => cs
  let digits := window.takeWhile Char.isDigit
  let n := Nat.ofDigitChars 10 digits 0
  if digits.length < least ∨ maxInt64 < n then none else some (n, cs.drop digits.length)

def skipBlanks (cs : List Char) : List Char := cs.dropWhile Text.isBlank

/-- The text behind `expected`, ignoring ASCII case. -/
def dropIgnoringCase? (expected cs : List Char) : Option (List Char) :=
  if (cs.take expected.length).map Char.toLower = expected.map Char.toLower ∧
      expected.length ≤ cs.length then some (cs.drop expected.length)
  else none

/-- Index of the name whose first three letters stand next. -/
def takeShortName? (names : List String) (cs : List Char) : Option (Nat × List Char) :=
  (names.findIdx? fun name => (dropIgnoringCase? (name.toList.take 3) cs).isSome).map
    (·, cs.drop 3)

/-- Index of the name that stands next, in full or by its first three letters. -/
def takeName? (names : List String) (cs : List Char) : Option (Nat × List Char) :=
  (takeShortName? names cs).map fun (i, rest) =>
    (i, (dropIgnoringCase? ((names.getD i "").toList.drop 3) rest).getD rest)

/-- Digits after the point of a second, as nanoseconds; digits beyond the ninth are dropped. -/
def takeFraction? (cs : List Char) : Option (Int × List Char) :=
  let digits := (cs.take 9).takeWhile Char.isDigit
  if digits.isEmpty then none
  else some (Nat.ofDigitChars 10 digits 0 * tenPow (9 - digits.length), cs.dropWhile Char.isDigit)

/-- Which spellings of an offset are read. -/
structure OffsetRule where
  /-- What may stand between hours and minutes. -/
  separator : List Char → Option (List Char)
  zulu : Bool
  missingMinutes : Bool
  minusSign : Bool

/-- Colons and blanks, or nothing, between hours and minutes. -/
def skipColons (cs : List Char) : List Char := cs.dropWhile fun c => c = ':' || Text.isBlank c

/-- Two digits of an offset. -/
def twoDigits? : List Char → Option (Nat × List Char)
  | a :: b :: rest =>
    match digit? a, digit? b with
    | some a, some b => some (a * 10 + b, rest)
    | _, _ => none
  | _ => none

/-- Bytes of text, which decide whether two more digits can follow. -/
def byteCount : List Char → Nat
  | [] => 0
  | c :: rest => c.utf8Size + byteCount rest

/-- An offset from UTC in seconds. -/
def takeOffset? (rule : OffsetRule) (cs : List Char) : Option (Int × List Char) :=
  match cs with
  | [] => none
  | c :: rest =>
    if rule.zulu && (c = 'Z' || c = 'z') then some (0, rest)
    else if c = '+' then signed 1 rest
    else if c = '-' || (rule.minusSign && c = '−') then signed (-1) rest
    else none
where
  signed (sign : Int) (cs : List Char) : Option (Int × List Char) := do
    let (hours, rest) ← twoDigits? cs
    let rest ← rule.separator rest
    if byteCount rest < 2 then
      if rule.missingMinutes && rest.isEmpty then return (sign * hours * 3600, rest) else none
    else
      let (minutes, rest) ← twoDigits? rest
      if 59 < minutes then none else return (sign * (hours * 3600 + minutes * 60), rest)

/-- Offsets of layouts. -/
def layoutOffset : OffsetRule := ⟨fun cs => some (skipColons cs), false, false, true⟩

/-- Offsets that may be the letter Z. -/
def zuluOffset : OffsetRule := ⟨fun cs => some (skipColons cs), true, false, true⟩

/-- Offsets that may be short or the letter Z. -/
def lenientOffset : OffsetRule := ⟨fun cs => some (skipColons cs), true, true, true⟩

namespace NumericPart

/-- Greatest number of digits, and whether a sign may lead to more. -/
def width : NumericPart → Option Nat × Bool
  | .year => (some 4, true)
  | .isoYear => (some 4, true)
  | .quarter => (some 1, false)
  | .weekdayFromSunday => (some 1, false)
  | .weekdayFromMonday => (some 1, false)
  | .ordinal => (some 3, false)
  | .nanosecond => (some 9, false)
  | .timestamp => (none, false)
  | _ => (some 2, false)

def take? (part : NumericPart) (cs : List Char) : Option (Int × List Char) :=
  match part.width, cs with
  | (_, true), '-' :: rest => (takeNumber? 1 none rest).map fun (n, rest) => (-n, rest)
  | (_, true), '+' :: rest => takeNumber? 1 none rest
  | (most, _), cs => takeNumber? 1 most cs

def put? (p : DateParts) (v : Int) : NumericPart → Option DateParts
  | .year => p.putYear? v
  | .century => p.putCentury? v
  | .yearOfCentury => p.putYearOfCentury? v
  | .isoYear => p.putIsoYear? v
  | .isoYearOfCentury => p.putIsoYearOfCentury? v
  | .quarter => p.putQuarter? v
  | .month => p.putMonth? v
  | .day => p.putDay? v
  | .weekFromSunday => p.putWeekFromSunday? v
  | .weekFromMonday => p.putWeekFromMonday? v
  | .isoWeek => p.putIsoWeek? v
  | .weekdayFromSunday => if v < 0 ∨ 6 < v then none else p.putWeekday? ((v + 6) % 7)
  | .weekdayFromMonday => p.putWeekday? (v - 1)
  | .ordinal => p.putOrdinal? v
  | .hour => p.putHour? v
  | .hour12 => p.putHour12? v
  | .minute => p.putMinute? v
  | .second => p.putSecond? v
  | .nanosecond => p.putNanosecond? v
  | .timestamp => p.putTimestamp? v

end NumericPart

/-- Reads one item of a layout. -/
def LayoutItem.read? (p : DateParts) (cs : List Char) : LayoutItem → Option (DateParts × List Char)
  | .literal c =>
    match cs with
    | d :: rest => if c = d then some (p, rest) else none
    | [] => none
  | .blank _ => some (p, skipBlanks cs)
  | .gap => some (p, skipBlanks cs)
  | .number part _ => do
    let (v, rest) ← part.take? (skipBlanks cs)
    return (← part.put? p v, rest)
  | .monthName long => do
    let (i, rest) ← if long then takeName? monthNames cs else takeShortName? monthNames cs
    return (← p.putMonth? (i + 1), rest)
  | .weekdayName long => do
    let (i, rest) ← if long then takeName? weekdayNames cs else takeShortName? weekdayNames cs
    return (← p.putWeekday? i, rest)
  | .halfDay _ =>
    match cs with
    | a :: m :: rest =>
      if m ≠ 'm' ∧ m ≠ 'M' then none
      else if a = 'a' ∨ a = 'A' then (p.putHalfDay? 0).map (·, rest)
      else if a = 'p' ∨ a = 'P' then (p.putHalfDay? 1).map (·, rest)
      else none
    | _ => none
  | .fraction _ =>
    match cs with
    | '.' :: rest => do
      let (v, rest) ← takeFraction? rest
      return (← p.putNanosecond? v, rest)
    | _ => some (p, cs)
  | .fractionDigits digits => do
    let (v, rest) ← takeNumber? digits (some digits) cs
    return (← p.putNanosecond? (v * tenPow (9 - digits)), rest)
  | .timeMark =>
    match cs with
    | c :: rest => if c = 't' ∨ c = 'T' ∨ c = ' ' then some (p, rest) else none
    | [] => none
  | .zoneName => some (p, cs.dropWhile (!Text.isBlank ·))
  | .offset _ => do
    let (v, rest) ← takeOffset? layoutOffset (skipBlanks cs)
    return (← p.putOffset? v, rest)
  | .zuluOffset =>
    match dropIgnoringCase? ['U', 'T', 'C'] cs with
    | some rest => (p.putOffset? 0).map (·, rest)
    | none => do
      let (v, rest) ← takeOffset? Calendar.zuluOffset cs
      return (← p.putOffset? v, rest)
  | .lenientOffset => do
    let (v, rest) ← takeOffset? Calendar.lenientOffset (skipBlanks cs)
    return (← p.putOffset? v, rest)

/-- Reads the items in order. -/
def readItems? (p : DateParts) (cs : List Char) :
    List LayoutItem → Option (DateParts × List Char)
  | [] => some (p, cs)
  | item :: items => do
    let (p, cs) ← item.read? p cs
    readItems? p cs items

/-- The parts of a date in text that a layout matches from end to end. -/
def readLayout? (layout : String) (text : String) : Option DateParts := do
  let items ← layoutItems? layout.toList
  match ← readItems? {} text.toList items with
  | (p, []) => some p
  | _ => none

end TenantSchema.Calendar
