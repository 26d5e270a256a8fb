import TenantSchema.Text.Blank

/-!
# Date layouts

A layout is text in which a percent sign introduces a part of a date: `%Y-%m-%d %H:%M:%S`. Some
letters stand for several parts at once (`%F`). Parts that are one number may be padded differently
(`%-d`). Text with an unknown part is no layout.
-/

namespace TenantSchema.Calendar

/-- Parts of a date that are numbers. -/
inductive NumericPart where
  | year
  | century
  | yearOfCentury
  | isoYear
  | isoYearOfCentury
  | quarter
  | month
  | day
  | weekFromSunday
  | weekFromMonday
  | isoWeek
  | weekdayFromSunday
  | weekdayFromMonday
  | ordinal
  | hour
  | hour12
  | minute
  | second
  | nanosecond
  | timestamp
deriving DecidableEq, Repr

/-- What fills a number up to its width. -/
inductive Padding where
  | none
  | zero
  | space
deriving DecidableEq, Repr

/-- How much of an offset from UTC is written, and with colons or without. -/
inductive OffsetStyle where
  | plain
  | colon
  | seconds
  | hours
deriving DecidableEq, Repr

inductive LayoutItem where
  | literal (c : Char)
  | blank (c : Char)
  /-- Blanks that may be read but are not written. -/
  | gap
  | number (part : NumericPart) (padding : Padding)
  | monthName (long : Bool)
  | weekdayName (long : Bool)
  | halfDay (upper : Bool)
  /-- A point and a fraction of the second, of fixed length or as long as needed. -/
  | fraction (digits : Option Nat)
  /-- A fraction of the second of fixed length, without a point. -/
  | fractionDigits (digits : Nat)
  /-- The letter between date and time; a blank is read as well. -/
  | timeMark
  /-- The name of the time zone, which tells nothing when it is read. -/
  | zoneName
  | offset (style : OffsetStyle)
  /-- An offset in whose place the letter Z or the name of UTC is read as well. -/
  | zuluOffset
  /-- An offset that may be short or the letter Z; it can be read but not written. -/
  | lenientOffset
deriving DecidableEq, Repr

/-- The number that a letter stands for, with its usual padding. -/
def numericPart? : Char → Option (NumericPart × Padding)
  | 'Y' => some (.year, .zero)
  | 'C' => some (.century, .zero)
  | 'y' => some (.yearOfCentury, .zero)
  | 'G' => some (.isoYear, .zero)
  | 'g' => some (.isoYearOfCentury, .zero)
  | 'q' => some (.quarter, .none)
  | 'm' => some (.month, .zero)
  | 'd' => some (.day, .zero)
  | 'e' => some (.day, .space)
  | 'U' => some (.weekFromSunday, .zero)
  | 'W' => some (.weekFromMonday, .zero)
  | 'V' => some (.isoWeek, .zero)
  | 'w' => some (.weekdayFromSunday, .none)
  | 'u' => some (.weekdayFromMonday, .none)
  | 'j' => some (.ordinal, .zero)
  | 'H' => some (.hour, .zero)
  | 'k' => some (.hour, .space)
  | 'I' => some (.hour12, .zero)
  | 'l' => some (.hour12, .space)
  | 'M' => some (.minute, .zero)
  | 'S' => some (.second, .zero)
  | 'f' => some (.nanosecond, .zero)
  | 's' => some (.timestamp, .none)
  | _ => none

def isoDate : List LayoutItem :=
  [.number .year .zero, .literal '-', .number .month .zero, .literal '-', .number .day .zero]

def americanDate : List LayoutItem :=
  [.number .month .zero, .literal '/', .number .day .zero, .literal '/',
    .number .yearOfCentury .zero]

def clockItems (hours : NumericPart) : List LayoutItem :=
  [.number hours .zero, .literal ':', .number .minute .zero, .literal ':', .number .second .zero]

/-- A timestamp of protocols, in which blanks may stand before the signs between the numbers. -/
def protocolItems : List LayoutItem :=
  [.number .year .zero, .gap, .literal '-', .number .month .zero, .gap, .literal '-',
    .number .day .zero, .timeMark, .number .hour .zero, .gap, .literal ':', .number .minute .zero,
    .gap, .literal ':', .number .second .zero, .fraction none, .gap, .zuluOffset]

/-- The items that a letter stands for. -/
def lettered? (c : Char) : Option (List LayoutItem) :=
  match numericPart? c with
  | some (part, padding) => some [.number part padding]
  | none =>
    match c with
    | '%' => some [.literal '%']
    | 'B' => some [.monthName true]
    | 'b' => some [.monthName false]
    | 'h' => some [.monthName false]
    | 'A' => some [.weekdayName true]
    | 'a' => some [.weekdayName false]
    | 'p' => some [.halfDay true]
    | 'P' => some [.halfDay false]
    | 'z' => some [.offset .plain]
    | 'Z' => some [.zoneName]
    | 'n' => some [.blank '\n']
    | 't' => some [.blank '\t']
    | 'F' => some isoDate
    | 'D' => some americanDate
    | 'x' => some americanDate
    | 'v' => some [.number .day .space, .literal '-', .monthName false, .literal '-',
        .number .year .zero]
    | 'R' => some [.number .hour .zero, .literal ':', .number .minute .zero]
    | 'T' => some (clockItems .hour)
    | 'X' => some (clockItems .hour)
    | 'r' => some (clockItems .hour12 ++ [.blank ' ', .halfDay true])
    | 'c' => some ([.weekdayName false, .blank ' ', .monthName false, .blank ' ',
        .number .day .space, .blank ' '] ++ clockItems .hour ++ [.blank ' ', .number .year .zero])
    | '+' => some protocolItems
    | _ => none

/-- The padding that a modifier asks for. -/
def padding? : Char → Option Padding
  | '-' => some .none
  | '0' => some .zero
  | '_' => some .space
  | _ => none

/-- The items after a percent sign, with the text behind them. -/
def part? : List Char → Option (List LayoutItem × List Char)
  | '#' :: 'z' :: rest => some ([.lenientOffset], rest)
  | ':' :: 'z' :: rest => some ([.offset .colon], rest)
  | ':' :: ':' :: 'z' :: rest => some ([.offset .seconds], rest)
  | ':' :: ':' :: ':' :: 'z' :: rest => some ([.offset .hours], rest)
  | '.' :: 'f' :: rest => some ([.fraction none], rest)
  | '.' :: '3' :: 'f' :: rest => some ([.fraction (some 3)], rest)
  | '.' :: '6' :: 'f' :: rest => some ([.fraction (some 6)], rest)
  | '.' :: '9' :: 'f' :: rest => some ([.fraction (some 9)], rest)
  | '3' :: 'f' :: rest => some ([.fractionDigits 3], rest)
  | '6' :: 'f' :: rest => some ([.fractionDigits 6], rest)
  | '9' :: 'f' :: rest => some ([.fractionDigits 9], rest)
  | c :: rest =>
    match padding? c, rest with
    | some padding, c :: rest => (numericPart? c).map fun p => ([.number p.1 padding], rest)
    | some _, [] => none
    | none, rest => (lettered? c).map (·, rest)
  | [] => none

theorem length_lt_of_part? {cs rest : List Char} {items : List LayoutItem}
    (h : part? cs = some (items, rest)) : rest.length < cs.length := by
  have key : ∀ more, rest = more → more.length < cs.length → rest.length < cs.length := by
    rintro _ rfl hlt
    exact hlt
  unfold part? at h
  split at h
  case h_12 =>
    split at h
    · obtain ⟨p, -, hp⟩ := Option.map_eq_some_iff.1 h
      refine key _ (congrArg Prod.snd hp).symm ?_
      simp only [List.length_cons]
      omega
    · cases h
    · obtain ⟨p, -, hp⟩ := Option.map_eq_some_iff.1 h
      refine key _ (congrArg Prod.snd hp).symm ?_
      simp only [List.length_cons]
      omega
  case h_13 => cases h
  all_goals
    refine key _ (congrArg Prod.snd (Option.some.inj h)).symm ?_
    simp only [List.length_cons]
    omega

/-- The items of a layout. -/
def layoutItems? : List Char → Option (List LayoutItem)
  | [] => some []
  | c :: rest =>
    if c = '%' then
      match h : part? rest with
      | none => none
      | some (items, more) =>
        have := length_lt_of_part? h
        (layoutItems? more).map (items ++ ·)
    else (layoutItems? rest).map ((if Text.isBlank c then .blank c else .literal c) :: ·)
termination_by cs => cs.length
decreasing_by
  · exact Nat.lt_succ_of_lt this
  · exact Nat.lt_succ_self _

end TenantSchema.Calendar
