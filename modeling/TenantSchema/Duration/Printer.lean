import TenantSchema.Duration.Basic

/-!
# Printing durations

The compact form: hours, minutes and seconds with a fraction (`1h30m0s`, `1.5s`), or a single
smaller unit for less than a second (`250ms`).
-/

namespace TenantSchema.Duration

/-- A whole number and a fraction of `width` digits without its last zeros. -/
def printDecimal (whole fraction width : Nat) : List Char :=
  let digits := Nat.toDigits 10 fraction
  Nat.toDigits 10 whole ++
    if fraction = 0 then []
    else
      '.' :: ((List.replicate (width - digits.length) '0' ++ digits).reverse.dropWhile
        (· = '0')).reverse

/-- The compact form of a positive number of nanoseconds. -/
def printMagnitude (n : Nat) : List Char :=
  if n < 1000 then Nat.toDigits 10 n ++ ['n', 's']
  else if n < 1000000 then printDecimal (n / 1000) (n % 1000) 3 ++ ['µ', 's']
  else if n < 1000000000 then printDecimal (n / 1000000) (n % 1000000) 6 ++ ['m', 's']
  else
    let total := n / 1000000000
    let hours := total / 3600
    let minutes := total / 60 % 60
    (if 0 < hours then Nat.toDigits 10 hours ++ ['h'] else []) ++
      (if 0 < hours ∨ 0 < minutes then Nat.toDigits 10 minutes ++ ['m'] else []) ++
      printDecimal (total % 60) (n % 1000000000) 9 ++ ['s']

def printChars (d : Duration) : List Char :=
  if d.nanos = 0 then ['0', 's']
  else (if d.nanos < 0 then ['-'] else []) ++ printMagnitude d.nanos.natAbs

def print (d : Duration) : String := String.ofList d.printChars

end TenantSchema.Duration
