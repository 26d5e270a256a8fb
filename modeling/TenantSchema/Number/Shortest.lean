import TenantSchema.Number.Binary64

/-!
# Shortest decimal of a double

The fewest digits that read back as the same double: of all decimals of `n` digits the nearest to the
value is taken for the least `n` at which one lies in the interval of reals that round to it.
-/

namespace TenantSchema.Number

/-- What to do when two shortest decimals are equally near. -/
inductive TieRule where
  | up
  | toEven
deriving DecidableEq, Repr

/-- The number `digits * 10 ^ exponent`. -/
structure Decimal where
  digits : Nat
  exponent : Int
deriving DecidableEq, Repr

/-- Drops a last zero, which a carry into a new leading digit leaves. -/
def Decimal.dropZero (d : Decimal) : Decimal :=
  if d.digits % 10 = 0 ∧ d.digits ≠ 0 then ⟨d.digits / 10, d.exponent + 1⟩ else d

/-- The reals that round to a double: `low / scale` to `high / scale` around `value / scale`, all
multiplied by a power of two or divided by one so that they are whole. -/
structure RoundingInterval where
  low : Nat
  value : Nat
  high : Nat
  scale : Nat
  closed : Bool
deriving Repr

namespace RoundingInterval

/-- Half the distance to each neighbour, the lower one being nearer at a power of two. -/
def of (x : Binary64) : RoundingInterval :=
  let m := double.significand x.code
  let e := double.exponent x.code - 2
  let up := twoPow e.toNat
  { low := (4 * m - if m = 0x10000000000000 ∧ double.minExponent < e + 2 then 1 else 2) * up
    value := 4 * m * up
    high := (4 * m + 2) * up
    scale := twoPow (-e).toNat
    closed := m % 2 = 0 }

/-- The fraction `num / den` rounds to the double. -/
def holds (i : RoundingInterval) (num den : Nat) : Bool :=
  if i.closed then decide (i.low * den ≤ num * i.scale) && decide (num * i.scale ≤ i.high * den)
  else decide (i.low * den < num * i.scale) && decide (num * i.scale < i.high * den)

end RoundingInterval

/-- Whole part of `log10 (num / den)` for a positive fraction. -/
def log10Floor (num den : Nat) : Int :=
  if den ≤ num then ((Nat.toDigits 10 (num / den)).length : Int) - 1
  else
    -- with `q = ⌈den / num⌉`, the fraction is below `1` and at least `1 / q`
    let q := (den + num - 1) / num
    0 - ((Nat.toDigits 10 (q - 1)).length : Int)

/-- The nearer of the value's two neighbours among the multiples of `10 ^ k`, if it rounds back. -/
def neighbour? (tie : TieRule) (i : RoundingInterval) (k : Int) : Option Decimal :=
  -- the unit `10 ^ k` is `num / den`
  let num := tenPow k.toNat
  let den := tenPow (-k).toNat
  let below := i.value * den / (i.scale * num)
  let rest := i.value * den % (i.scale * num)
  let half := i.scale * num
  let up := decide (half < 2 * rest) ||
    (decide (2 * rest = half) && (tie == .up || below % 2 == 1))
  let lowHolds := i.holds (below * num) den
  let highHolds := i.holds ((below + 1) * num) den
  if lowHolds && highHolds then some ⟨if up then below + 1 else below, k⟩
  else if lowHolds then some ⟨below, k⟩
  else if highHolds then some ⟨below + 1, k⟩
  else none

/-- The shortest decimal of a finite non-zero double's magnitude. -/
def shortest (tie : TieRule) (x : Binary64) : Decimal :=
  let i := RoundingInterval.of x
  let top := log10Floor i.value i.scale
  match (List.range 17).findSome? fun (n : Nat) => neighbour? tie i (top - n) with
  | some d => d.dropZero
  | none => ⟨i.value / i.scale, 0⟩

end TenantSchema.Number
