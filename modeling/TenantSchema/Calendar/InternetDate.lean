import TenantSchema.Calendar.DateReader

/-!
# Internet dates

Two fixed formats: the one of mail headers (`Mon, 18 Nov 2024 17:37:43 +0000`) and the one of
timestamps in protocols (`2024-11-18T17:37:43Z`).
-/

namespace TenantSchema.Calendar

def takeChar? (c : Char) : List Char → Option (List Char)
  | d :: rest => if c = d then some rest else none
  | [] => none

/-- At least one blank. -/
def takeBlanks? : List Char → Option (List Char)
  | c :: rest => if Text.isBlank c then some (skipBlanks rest) else none
  | [] => none

/-! ### Mail headers -/

/-- Hours east of UTC of the zone names that mail uses. -/
def zoneHours? (name : String) : Option Int :=
  match name with
  | "gmt" | "ut" | "z" => some 0
  | "edt" => some (-4)
  | "est" | "cdt" => some (-5)
  | "cst" | "mdt" => some (-6)
  | "mst" | "pdt" => some (-7)
  | "pst" => some (-8)
  | _ =>
    -- the other letters but J are read as an unknown zone
    if name.length = 1 ∧ name ≠ "j" then some 0 else none

/-- Offsets in mail: four digits without a colon. -/
def mailOffset : OffsetRule := ⟨some, false, false, false⟩

def takeZone? (cs : List Char) : Option (Int × List Char) :=
  let name := cs.takeWhile Char.isAlpha
  if name.isEmpty then takeOffset? mailOffset cs
  else
    (zoneHours? (String.ofList (name.map Char.toLower))).map fun h =>
      (h * 3600, cs.dropWhile Char.isAlpha)

/-- The text behind a comment that is already open `depth` deep. -/
def closeComment? : Nat → List Char → Option (List Char)
  | _, [] => none
  | depth, c :: rest =>
    if c = '\\' then
      match rest with
      | [] => none
      | _ :: rest => closeComment? depth rest
    else if c = '(' then closeComment? (depth + 1) rest
    else if c = ')' then if depth ≤ 1 then some rest else closeComment? (depth - 1) rest
    else closeComment? depth rest

/-- Comments in brackets, at most `n` of them. -/
def skipComments : Nat → List Char → List Char
  | 0, cs => cs
  | n + 1, cs =>
    match skipBlanks cs with
    | '(' :: rest =>
      match closeComment? 1 rest with
      | some rest => skipComments n rest
      | none => cs
    | _ => cs

/-- Years of two digits are 1950 to 2049, those of three digits count from 1900. -/
def mailYear (digits : Nat) (year : Int) : Int :=
  if digits = 2 then if year < 50 then year + 2000 else year + 1900
  else if digits = 3 then year + 1900
  else year

/-- The parts of a date in a mail header. -/
def readMailDate? (text : String) : Option DateParts := do
  let cs := skipBlanks text.toList
  let (p, cs) ←
    match takeShortName? weekdayNames cs with
    | some (i, rest) => do
      let rest ← takeChar? ',' rest
      let p ← DateParts.putWeekday? {} i
      some (p, rest)
    | none => some ({}, cs)
  let (day, cs) ← takeNumber? 1 (some 2) (skipBlanks cs)
  let p ← p.putDay? day
  let (month, cs) ← takeShortName? monthNames (← takeBlanks? cs)
  let p ← p.putMonth? (month + 1)
  let yearText ← takeBlanks? cs
  let (year, cs) ← takeNumber? 2 none yearText
  let p ← p.putYear? (mailYear (yearText.length - cs.length) year)
  let (hour, cs) ← takeNumber? 2 (some 2) (← takeBlanks? cs)
  let p ← p.putHour? hour
  let (minute, cs) ← takeNumber? 2 (some 2) (skipBlanks (← takeChar? ':' (skipBlanks cs)))
  let p ← p.putMinute? minute
  let (p, cs) ←
    match takeChar? ':' (skipBlanks cs) with
    | some rest => do
      let (second, rest) ← takeNumber? 2 (some 2) rest
      some (← p.putSecond? second, rest)
    | none => some (p, cs)
  let (offset, cs) ← takeZone? (← takeBlanks? cs)
  let p ← p.putOffset? offset
  if (skipComments cs.length cs).isEmpty then some p else none

/-! ### Protocol timestamps -/

/-- Offsets with a colon, or the letter Z. -/
def protocolOffset : OffsetRule := ⟨takeChar? ':', true, false, true⟩

/-- The parts of a date in a protocol timestamp. -/
def readProtocolDate? (text : String) : Option DateParts := do
  let (year, cs) ← takeNumber? 4 (some 4) text.toList
  let p ← DateParts.putYear? {} year
  let (month, cs) ← takeNumber? 2 (some 2) (← takeChar? '-' cs)
  let p ← p.putMonth? month
  let (day, cs) ← takeNumber? 2 (some 2) (← takeChar? '-' cs)
  let p ← p.putDay? day
  let cs ←
    match cs with
    | c :: rest => if c = 't' ∨ c = 'T' ∨ c = ' ' then some rest else none
    | [] => none
  let (hour, cs) ← takeNumber? 2 (some 2) cs
  let p ← p.putHour? hour
  let (minute, cs) ← takeNumber? 2 (some 2) (← takeChar? ':' cs)
  let p ← p.putMinute? minute
  let (second, cs) ← takeNumber? 2 (some 2) (← takeChar? ':' cs)
  let p ← p.putSecond? second
  let (p, cs) ←
    match cs with
    | '.' :: rest => do
      let (nanos, rest) ← takeFraction? rest
      some (← p.putNanosecond? nanos, rest)
    | _ => some (p, cs)
  let (offset, cs) ← takeOffset? protocolOffset cs
  let p ← p.putOffset? offset
  if cs.isEmpty then some p else none

end TenantSchema.Calendar
