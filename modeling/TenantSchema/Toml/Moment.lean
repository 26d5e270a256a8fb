import TenantSchema.Calendar.InternetDate

/-!
# Dates and times in TOML

A date, a time of day, or both, with an offset from UTC or without. Only their extent matters: each
function gives the text behind what it recognises.
-/

namespace TenantSchema.Toml

open TenantSchema.Calendar (takeChar?)

/-- A number of exactly `width` digits, up to `greatest`. -/
def fixedNumber? (width greatest : Nat) (cs : List Char) : Option (Nat × List Char) :=
  let digits := cs.take width
  let n := Nat.ofDigitChars 10 digits 0
  if digits.length = width ∧ digits.all Char.isDigit ∧ n ≤ greatest then some (n, cs.drop width)
  else none

/-- A day of the calendar. -/
def behindDate? (cs : List Char) : Option (List Char) := do
  let (year, cs) ← fixedNumber? 4 9999 cs
  let (month, cs) ← fixedNumber? 2 12 (← takeChar? '-' cs)
  let (day, cs) ← fixedNumber? 2 31 (← takeChar? '-' cs)
  if (Calendar.Date.of? year month day).isSome then some cs else none

/-- The fraction of a second, if there is one. -/
def behindFraction : List Char → List Char
  | '.' :: c :: rest => if c.isDigit then rest.dropWhile Char.isDigit else '.' :: c :: rest
  | cs => cs

/-- Hours and minutes, with seconds or without. -/
def behindTime? (cs : List Char) : Option (List Char) := do
  let (_, cs) ← fixedNumber? 2 23 cs
  let (_, cs) ← fixedNumber? 2 59 (← takeChar? ':' cs)
  match cs with
  | ':' :: rest => (fixedNumber? 2 60 rest).map fun (_, cs) => behindFraction cs
  | _ => some cs

/-- An offset in hours and minutes. -/
def behindHours? (cs : List Char) : Option (List Char) := do
  let (_, cs) ← fixedNumber? 2 23 cs
  let (_, cs) ← fixedNumber? 2 59 (← takeChar? ':' cs)
  return cs

/-- The offset from UTC, if there is one. -/
def behindOffset (cs : List Char) : List Char :=
  match cs with
  | [] => []
  | c :: rest =>
    if c = 'Z' ∨ c = 'z' then rest
    else if c = '+' ∨ c = '-' then (behindHours? rest).getD cs
    else cs

/-- A time may follow its date behind the letter T or a blank. -/
def behindTimeOfDate (cs : List Char) : List Char :=
  match cs with
  | [] => []
  | c :: rest =>
    if c = 'T' ∨ c = 't' ∨ c = ' ' then ((behindTime? rest).map behindOffset).getD cs else cs

/-- A date or a time of day with the text behind it. -/
def moment? (cs : List Char) : Option (String × List Char) :=
  ((behindDate? cs).map behindTimeOfDate <|> behindTime? cs).map fun rest =>
    (String.ofList (cs.take (cs.length - rest.length)), rest)

end TenantSchema.Toml
