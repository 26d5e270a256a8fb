/-!
# Integer text

Reading and writing integers in decimal. A reader works between two limits and tells a number beyond
a limit from text that is no integer: the digits are taken from the left, and whichever trouble comes
first decides.
-/

namespace TenantSchema.Number

/-- What reading an integer between two limits can give. -/
inductive IntegerText where
  | value (n : Int)
  | aboveRange
  | belowRange
  | malformed
deriving DecidableEq, Repr

def digit? (c : Char) : Option Nat := if c.isDigit then some (c.toNat - '0'.toNat) else none

/-- Appends digits to `acc`, upwards to `hi`. -/
def readUp (hi acc : Int) : List Char → IntegerText
  | [] => .value acc
  | c :: rest =>
    match digit? c with
    | none => .malformed
    | some d => if hi < acc * 10 + d then .aboveRange else readUp hi (acc * 10 + d) rest

/-- Appends digits to the negative number `acc`, downwards to `lo`. -/
def readDown (lo acc : Int) : List Char → IntegerText
  | [] => .value acc
  | c :: rest =>
    match digit? c with
    | none => .malformed
    | some d => if acc * 10 - d < lo then .belowRange else readDown lo (acc * 10 - d) rest

/-- An integer with at most one sign and at least one digit. -/
def readInteger (lo hi : Int) : List Char → IntegerText
  | [] => .malformed
  | ['+'] => .malformed
  | ['-'] => .malformed
  | '+' :: rest => readUp hi 0 rest
  | '-' :: rest => readDown lo 0 rest
  | cs => readUp hi 0 cs

def IntegerText.toOption : IntegerText → Option Int
  | .value n => some n
  | _ => none

/-- The decimal digits of `n`, after a minus sign if it is negative. -/
def intDigits (n : Int) : List Char :=
  if n < 0 then '-' :: Nat.toDigits 10 n.natAbs else Nat.toDigits 10 n.natAbs

def intText (n : Int) : String := String.ofList (intDigits n)

def natText (n : Nat) : String := String.ofList (Nat.toDigits 10 n)

/-! ### Limits of the machine words -/

def maxInt64 : Int := 9223372036854775807
def minInt64 : Int := -9223372036854775808
def maxUInt64 : Int := 18446744073709551615
def maxInt128 : Int := 170141183460469231731687303715884105727
def minInt128 : Int := -170141183460469231731687303715884105728

def int64? (n : Int) : Option Int64 :=
  if minInt64 ≤ n ∧ n ≤ maxInt64 then some (Int64.ofInt n) else none

def uint64? (n : Int) : Option UInt64 :=
  if 0 ≤ n ∧ n ≤ maxUInt64 then some (UInt64.ofNat n.toNat) else none

/-! ### Laws -/

theorem minInt64_le_toInt (x : Int64) : minInt64 ≤ x.toInt := Int64.le_toInt x

theorem toInt_le_maxInt64 (x : Int64) : x.toInt ≤ maxInt64 := by
  have h := Int64.toInt_lt x
  simp only [maxInt64]
  omega

theorem toNat_le_maxUInt64 (x : UInt64) : (x.toNat : Int) ≤ maxUInt64 := by
  have h := x.toNat_lt
  simp only [maxUInt64]
  omega

theorem toInt_of_int64? {n : Int} {x : Int64} (h : int64? n = some x) : x.toInt = n := by
  unfold int64? at h
  split at h
  · next hn =>
    cases h
    exact Int64.toInt_ofInt_of_le hn.1 (by simp only [maxInt64] at hn; omega)
  · cases h

@[simp] theorem int64?_toInt (x : Int64) : int64? x.toInt = some x := by
  rw [int64?, if_pos ⟨minInt64_le_toInt x, toInt_le_maxInt64 x⟩, Int64.ofInt_toInt]

theorem toNat_of_uint64? {n : Int} {x : UInt64} (h : uint64? n = some x) : (x.toNat : Int) = n := by
  unfold uint64? at h
  split at h
  · next hn =>
    cases h
    simp [maxUInt64] at hn
    rw [UInt64.toNat_ofNat', Nat.mod_eq_of_lt (by omega)]
    omega
  · cases h

@[simp] theorem uint64?_toNat (x : UInt64) : uint64? x.toNat = some x := by
  rw [uint64?, if_pos ⟨by omega, toNat_le_maxUInt64 x⟩]
  simp

end TenantSchema.Number
