import TenantSchema.Duration.Basic
import TenantSchema.Text.Blank

/-!
# Duration literals

Two notations are read: interval literals, which are amounts with unit words and clocks between
blanks (`1 day 02:00:00`, `2 hours ago`), and compact literals, amounts with short units and nothing
between them (`1h30m`). Sums and products beyond 128 bits are refused. Negation is not checked: the
least word has no negative, and a reading that comes to take it overflows, which is the end of it.
-/

namespace TenantSchema.Duration

open TenantSchema.Number

/-- `n`, if a 128-bit word holds it. -/
def within128 (n : Int) : Option Int := if minInt128 ≤ n ∧ n ≤ maxInt128 then some n else none

/-- A negation has left the 128 bits. -/
structure Overflow
deriving DecidableEq, Repr

/-- A reading goes on, fails or overflows. Another notation is tried after a failure only. -/
abbrev Reading := OptionT (Except Overflow)

/-- The reading that overflows. -/
def overflow {α : Type} : Reading α := OptionT.mk (.error {})

instance : MonadLift Option Reading := ⟨fun found => OptionT.mk (pure found)⟩

@[simp] theorem lift_some {α : Type} (a : α) : (liftM (some a) : Reading α) = pure a := rfl

@[simp] theorem lift_none {α : Type} : (liftM (none : Option α) : Reading α) = failure := rfl

/-- The negative of a word. The least word has none. -/
def negate (n : Int) : Reading Int := if n = minInt128 then overflow else return -n

theorem negate_of_ne {n : Int} (h : n ≠ minInt128) : negate n = pure (-n) := if_neg h

/-! ### Amounts -/

/-- A decimal amount: a sign, a whole part and digits of a fraction. -/
structure Amount where
  negative : Bool
  whole : Int
  fraction : Int
  fractionDigits : Nat
deriving DecidableEq, Repr

/-- Splits off one sign. -/
def splitSign : List Char → Bool × List Char
  | '-' :: rest => (true, rest)
  | '+' :: rest => (false, rest)
  | cs => (false, cs)

/-- Digits of a fraction that are kept. -/
def keptDigits : Nat := 18

/-- A decimal: digits, a point with digits, or both. -/
def readAmount? (token : List Char) : Option Amount :=
  let (negative, body) := splitSign token
  let whole := body.takeWhile (· ≠ '.')
  let fraction := (body.dropWhile (· ≠ '.')).drop 1
  if whole.isEmpty && fraction.isEmpty then none
  else if !whole.all Char.isDigit || !fraction.all Char.isDigit then none
  else
    let kept := fraction.take keptDigits
    (within128 (Nat.ofDigitChars 10 whole 0)).map fun w =>
      ⟨negative, w, Nat.ofDigitChars 10 kept 0, kept.length⟩

/-- The amount in units of `unit` nanoseconds, toward zero. -/
def Amount.scale? (a : Amount) (unit : Int) : Reading Int := do
  let whole ← within128 (a.whole * unit)
  let fraction ← within128 (a.fraction * unit)
  let nanos ← within128 (whole + fraction / tenPow a.fractionDigits)
  if a.negative then negate nanos else return nanos

/-! ### Interval literals -/

/-- Nanoseconds of a unit word, in any ASCII case. -/
def intervalUnit? (word : List Char) : Option Int :=
  match String.ofList (word.map Char.toLower) with
  | "microsecond" | "microseconds" | "usec" | "usecs" => some micro
  | "millisecond" | "milliseconds" | "msec" | "msecs" => some milli
  | "second" | "seconds" | "sec" | "secs" => some second
  | "minute" | "minutes" | "min" | "mins" => some minute
  | "hour" | "hours" | "hr" | "hrs" => some hour
  | "day" | "days" => some day
  | "week" | "weeks" => some week
  | "mon" | "mons" | "month" | "months" => some month
  | "year" | "years" | "yr" | "yrs" => some year
  | _ => none

/-- A part of a clock that is a whole number. -/
def clockPart? (cs : List Char) : Option Int := (readInteger minInt128 maxInt128 cs).toOption

/-- The total of hours, minutes and nanoseconds on a clock. -/
def clockTotal? (hours minutes seconds : Int) : Option Int :=
  if 60 ≤ minutes ∨ minute ≤ seconds then none
  else do
    let h ← within128 (hours * hour)
    let m ← within128 (minutes * minute)
    let hm ← within128 (h + m)
    within128 (hm + seconds)

/-- Hours and minutes, with seconds or without. -/
def clockNanos? (body : List Char) : Reading Int :=
  match Text.pieces (· = ':') body with
  | [h, m] => do clockTotal? (← clockPart? h) (← clockPart? m) 0
  | [h, m, s] => do
    clockTotal? (← clockPart? h) (← clockPart? m) (← (← readAmount? s).scale? second)
  | _ => failure

/-- A clock with a sign of its own, besides those of its parts. -/
def readClock? (token : List Char) : Reading Int := do
  let (negative, body) := splitSign token
  let n ← clockNanos? body
  if negative then negate n else return n

def isAgo (token : List Char) : Bool := token.map Char.toLower == ['a', 'g', 'o']

/-- Adds the parts of an interval to `total`, of which `parts` came before. -/
def sumInterval? (total : Int) (parts : Nat) : List (List Char) → Reading Int
  | [] => if parts = 0 then failure else return total
  | token :: rest =>
    if isAgo token && rest.isEmpty && 0 < parts then negate total
    else if token.contains ':' then do
      let total ← within128 (total + (← readClock? token))
      sumInterval? total (parts + 1) rest
    else
      match readAmount? token, rest with
      | none, _ => failure
      -- a bare number at the end counts seconds
      | some amount, [] => do within128 (total + (← amount.scale? second))
      | some amount, word :: rest => do
        let nanos ← amount.scale? (← intervalUnit? word)
        let total ← within128 (total + nanos)
        sumInterval? total (parts + 1) rest

def readInterval? (text : List Char) : Reading Int := sumInterval? 0 0 (Text.words text)

/-! ### Compact literals -/

def compactUnit? (unit : List Char) : Option Int :=
  match String.ofList unit with
  | "ns" => some 1
  | "us" | "µs" | "μs" => some micro
  | "ms" => some milli
  | "s" => some second
  | "m" => some minute
  | "h" => some hour
  | _ => none

def isAmountChar (c : Char) : Bool := c.isDigit || c = '.'

/-- What follows a pair of amount and unit, given the text behind its first character. -/
def behindPair (rest : List Char) : List Char :=
  (rest.dropWhile isAmountChar).dropWhile (!isAmountChar ·)

theorem length_behindPair_lt (c : Char) (rest : List Char) :
    (behindPair rest).length < (c :: rest).length :=
  Nat.lt_succ_of_le <| Nat.le_trans (List.dropWhile_suffix _).length_le
    (List.dropWhile_suffix _).length_le

/-- Adds the pairs of amount and unit to `total`. -/
def sumCompact? (total : Int) : List Char → Reading Int
  | [] => return total
  | c :: rest =>
    if isAmountChar c then do
      let amount ← readAmount? (c :: rest.takeWhile isAmountChar)
      let unit ← compactUnit? ((rest.dropWhile isAmountChar).takeWhile (!isAmountChar ·))
      let total ← within128 (total + (← amount.scale? unit))
      sumCompact? total (behindPair rest)
    else failure
termination_by cs => cs.length
decreasing_by exact length_behindPair_lt c rest

/-- One sign and at least one pair. -/
def readCompact? (text : List Char) : Reading Int := do
  let (negative, body) := splitSign text
  if body.isEmpty then failure
  else
    let n ← sumCompact? 0 body
    if negative then negate n else return n

/-! ### Either notation -/

/-- The span of a literal, if a 64-bit word holds its nanoseconds. -/
def readLiteral? (text : String) : Reading Duration := do
  let cs := Text.trimChars text.toList
  if cs = ['0'] ∨ cs = ['0', 's'] then return zero
  else
    let n ← readInterval? cs <|> readCompact? cs
    if minInt64 ≤ n ∧ n ≤ maxInt64 then ofNanos? n else failure

def read? (text : String) : Except Overflow (Option Duration) := (readLiteral? text).run

end TenantSchema.Duration
