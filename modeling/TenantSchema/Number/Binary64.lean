import TenantSchema.Number.Power

/-!
# Double-precision numbers

A double is its 64-bit pattern. `toRat` is the exact value of a finite one, `ofRat` the double
nearest to a rational (ties to the even significand, too large becomes infinite), and the order is
that of the sign-magnitude codes. Single precision is a second format of the same rounding.
-/

namespace TenantSchema.Number

/-- Quotient to the nearest integer, a half to the even one. -/
def divNearestEven (n d : Nat) : Nat :=
  let q := n / d
  let r := n % d
  if d < 2 * r ∨ (2 * r = d ∧ q % 2 = 1) then q + 1 else q

/-- The magnitude `num / den` in units of `2 ^ e`, as a fraction. -/
def inUnits (num den : Nat) (e : Int) : Nat × Nat :=
  if 0 ≤ e then (num, den * twoPow e.toNat) else (num * twoPow (-e).toNat, den)

/-- A binary format: bits of the significand, least exponent of a unit in the last place, and the
code of infinity. -/
structure BinaryFormat where
  precision : Nat
  minExponent : Int
  infinity : Nat
deriving DecidableEq, Repr

def double : BinaryFormat := ⟨53, -1074, 0x7FF0000000000000⟩

def single : BinaryFormat := ⟨24, -149, 0x7F800000⟩

/-- Exponent of the unit in the last place for the magnitude `num / den`. -/
def BinaryFormat.unitExponent (f : BinaryFormat) (num den : Nat) : Int :=
  let e : Int := (num.log2 : Int) - den.log2 - f.precision + 1
  let (n, d) := inUnits num den e
  max (if n / d < twoPow (f.precision - 1) then e - 1 else e) f.minExponent

/-- Code of the magnitude nearest to `num / den`. -/
def BinaryFormat.nearest (f : BinaryFormat) (num den : Nat) : Nat :=
  if num = 0 then 0
  else
    let e := f.unitExponent num den
    let (n, d) := inUnits num den e
    min ((e - f.minExponent).toNat * twoPow (f.precision - 1) + divNearestEven n d) f.infinity

/-- Significand of a magnitude code. -/
def BinaryFormat.significand (f : BinaryFormat) (code : Nat) : Nat :=
  let unit := twoPow (f.precision - 1)
  if code < unit then code else unit + code % unit

/-- Exponent of the unit in the last place of a magnitude code. -/
def BinaryFormat.exponent (f : BinaryFormat) (code : Nat) : Int :=
  f.minExponent + (code / twoPow (f.precision - 1) - 1 : Nat)

/-- A double-precision number, by its bits. -/
structure Binary64 where
  bits : UInt64
deriving DecidableEq, Repr

namespace Binary64

/-- The sign bit of a pattern. -/
def signBit : Nat := 0x8000000000000000

/-- The bits without the sign. -/
def code (x : Binary64) : Nat := x.bits.toNat % signBit

def isNegative (x : Binary64) : Bool := decide (signBit ≤ x.bits.toNat)

def isFinite (x : Binary64) : Bool := decide (x.code < double.infinity)

def isNaN (x : Binary64) : Bool := decide (double.infinity < x.code)

def ofCode (negative : Bool) (code : Nat) : Binary64 :=
  ⟨UInt64.ofNat (code + if negative then signBit else 0)⟩

def nan : Binary64 := ⟨0x7FF8000000000000⟩

def infinite (negative : Bool) : Binary64 := ofCode negative double.infinity

def zero : Binary64 := ⟨0⟩

/-- `m * 2 ^ e` as a rational. -/
def scaledRat (m : Int) (e : Int) : Rat :=
  if 0 ≤ e then ((m * twoPow e.toNat : Int) : Rat) else mkRat m (twoPow (-e).toNat)

/-- The exact value of a finite number. -/
def toRat (x : Binary64) : Rat :=
  let m : Int := double.significand x.code
  scaledRat (if x.isNegative then -m else m) (double.exponent x.code)

/-- The double nearest to `num / den`, with the given sign. -/
def ofRatio (negative : Bool) (num den : Nat) : Binary64 :=
  ofCode negative (double.nearest num den)

/-- The double nearest to a rational. -/
def ofRat (r : Rat) : Binary64 := ofRatio (decide (r < 0)) r.num.natAbs r.den

/-- The double nearest to an integer. -/
def ofInt (n : Int) : Binary64 := ofRatio (decide (n < 0)) n.natAbs 1

/-- Position in the order of the numbers; both zeros stand at 0. -/
def rank (x : Binary64) : Int := if x.isNegative then -(x.code : Int) else x.code

/-- Numeric comparison; a NaN is not below anything and nothing is below it. -/
def lt (x y : Binary64) : Bool := !x.isNaN && !y.isNaN && decide (x.rank < y.rank)

def le (x y : Binary64) : Bool := !x.isNaN && !y.isNaN && decide (x.rank ≤ y.rank)

/-- The magnitude exceeds that of the finite number `y`. -/
def magnitudeAbove (x y : Binary64) : Bool := !x.isNaN && decide (y.code < x.code)

def magnitudeAtLeast (x y : Binary64) : Bool := !x.isNaN && decide (y.code ≤ x.code)

/-- The integer toward zero of a finite number. -/
def truncate (x : Binary64) : Int :=
  let r := x.toRat
  Int.tdiv r.num r.den

/-- The whole-number value of `x`, if it is one. -/
def integer? (x : Binary64) : Option Int :=
  let r := x.toRat
  if x.isFinite && r.den == 1 then some r.num else none

end Binary64

/-- A rational to the nearest integer, a half away from zero. -/
def roundHalfAway (r : Rat) : Int :=
  let q : Int := (2 * r.num.natAbs + r.den) / (2 * r.den)
  if r < 0 then -q else q

/-! ### Single precision -/

/-- The greatest finite single-precision number. -/
def maxSingle : Binary64 := ⟨0x47EFFFFFE0000000⟩

/-- A single-precision magnitude code as a double with the given sign. -/
def widenSingle (negative : Bool) (code : Nat) : Binary64 :=
  if code = single.infinity then .infinite negative
  else if single.infinity < code then .nan
  else
    let (n, d) := if 0 ≤ single.exponent code
      then (single.significand code * twoPow (single.exponent code).toNat, 1)
      else (single.significand code, twoPow (-single.exponent code).toNat)
    .ofRatio negative n d

/-- The double with the value of a single-precision bit pattern. -/
def ofSingleBits (bits : UInt32) : Binary64 :=
  widenSingle (decide (0x80000000 ≤ bits.toNat)) (bits.toNat % 0x80000000)

/-- Rounds a double through single precision. -/
def Binary64.toSingle (x : Binary64) : Binary64 :=
  if x.isFinite then
    widenSingle x.isNegative (single.nearest x.toRat.num.natAbs x.toRat.den)
  else x

end TenantSchema.Number
