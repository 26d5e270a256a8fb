import TenantSchema.Number.Integer
import TenantSchema.Number.Shortest

/-!
# Decimal text of doubles

Two notations write a double with its shortest digits: messages and stored text never use an
exponent, the wire does outside `1e-5 ≤ |x| < 1e16` and keeps a decimal after whole numbers. The
reader accepts either, rounding the decimal to the nearest double.
-/

namespace TenantSchema.Number

/-- How shortest digits become text. -/
structure FloatNotation where
  tie : TieRule
  /-- Whole numbers end in a decimal zero. -/
  keepsPoint : Bool
  /-- The exponents of a leading digit that are written positionally, if not all are. -/
  positional : Option (Int × Int)

/-- Numbers in messages and stored text. -/
def plainNotation : FloatNotation := ⟨.up, false, none⟩

/-- Numbers on the wire. -/
def wireNotation : FloatNotation := ⟨.toEven, true, some (-5, 15)⟩

/-- Digits with the decimal point after the first `point` of them. -/
def positionalDigits (keepsPoint : Bool) (digits : List Char) (point : Int) : List Char :=
  if point ≤ 0 then ['0', '.'] ++ List.replicate (-point).toNat '0' ++ digits
  else if (digits.length : Int) ≤ point then
    digits ++ List.replicate (point.toNat - digits.length) '0' ++
      if keepsPoint then ['.', '0'] else []
  else digits.take point.toNat ++ '.' :: digits.drop point.toNat

/-- One digit, the rest after a point, and the signed exponent. -/
def scientificDigits (digits : List Char) (exponent : Int) : List Char :=
  let fraction := digits.drop 1
  digits.take 1 ++ (if fraction.isEmpty then [] else '.' :: fraction) ++
    'e' :: (if exponent < 0 then [] else ['+']) ++ intDigits exponent

namespace FloatNotation

def writesPositional (f : FloatNotation) (exponent : Int) : Bool :=
  match f.positional with
  | none => true
  | some (least, greatest) => decide (least ≤ exponent) && decide (exponent ≤ greatest)

def digits (f : FloatNotation) (x : Binary64) : List Char :=
  let sign := if x.isNegative then ['-'] else []
  if x.isNaN then ['N', 'a', 'N']
  else if !x.isFinite then sign ++ ['i', 'n', 'f']
  else if x.code = 0 then sign ++ '0' :: if f.keepsPoint then ['.', '0'] else []
  else
    let d := shortest f.tie x
    let ds := Nat.toDigits 10 d.digits
    let point := (ds.length : Int) + d.exponent
    sign ++ if f.writesPositional (point - 1) then positionalDigits f.keepsPoint ds point
      else scientificDigits ds (point - 1)

end FloatNotation

/-- The text of a double in messages. -/
def floatText (x : Binary64) : String := String.ofList (plainNotation.digits x)

/-- The text of a double on the wire. -/
def wireFloatText (x : Binary64) : String := String.ofList (wireNotation.digits x)

/-! ### Reading -/

/-- The double nearest to `digits * 10 ^ exponent`. -/
def ofDecimal (negative : Bool) (digits : Nat) (exponent : Int) : Binary64 :=
  let magnitude := ((Nat.toDigits 10 digits).length : Int) + exponent
  if digits = 0 then .ofCode negative 0
  else if 400 < magnitude then .infinite negative
  else if magnitude < -400 then .ofCode negative 0
  else .ofRatio negative (digits * tenPow exponent.toNat) (tenPow (-exponent).toNat)

/-- An exponent: an optional sign and digits. -/
def readExponent? : List Char → Option Int
  | '+' :: rest => digits? rest
  | '-' :: rest => (digits? rest).map (-·)
  | rest => digits? rest
where
  digits? (cs : List Char) : Option Int :=
    if cs.isEmpty || !cs.all Char.isDigit then none else some (Nat.ofDigitChars 10 cs 0)

/-- Digits, at most one point and an optional exponent. -/
def readDecimal? (negative : Bool) (cs : List Char) : Option Binary64 :=
  let whole := cs.takeWhile Char.isDigit
  let rest := cs.dropWhile Char.isDigit
  let (fraction, rest) :=
    match rest with
    | '.' :: more => (more.takeWhile Char.isDigit, more.dropWhile Char.isDigit)
    | _ => ([], rest)
  if whole.isEmpty && fraction.isEmpty then none
  else
    let digits := Nat.ofDigitChars 10 (whole ++ fraction) 0
    match rest with
    | [] => some (ofDecimal negative digits (-(fraction.length : Int)))
    | c :: more =>
      if c = 'e' ∨ c = 'E' then
        (readExponent? more).map fun e => ofDecimal negative digits (e - fraction.length)
      else none

/-- A number, or a name of infinity or of no number, after an optional sign. -/
def readFloat? (cs : List Char) : Option Binary64 :=
  let (negative, body) :=
    match cs with
    | '-' :: rest => (true, rest)
    | '+' :: rest => (false, rest)
    | _ => (false, cs)
  match readDecimal? negative body with
  | some x => some x
  | none =>
    let name := String.ofList (body.map Char.toLower)
    if name = "inf" ∨ name = "infinity" then some (.infinite negative)
    else if name = "nan" then some .nan
    else none

end TenantSchema.Number
