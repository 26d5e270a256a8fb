import TenantSchema.Text.CaseIgnorableTable
import TenantSchema.Text.CasedTable
import TenantSchema.Text.LowerCaseTable
import TenantSchema.Text.Ranges

/-!
# Letter case

`lower` is the full lower-case mapping: one character may become two (a capital I with dot), and a
capital sigma becomes the final form at the end of a word. `eqFold` compares names ignoring case.
-/

namespace TenantSchema.Text

def CaseRun.holds (r : CaseRun) (n : Nat) : Bool :=
  decide (r.first ≤ n) && decide (n ≤ r.last) && (n - r.first) % r.step == 0

/-- The single-character mapping: ASCII directly, the rest by the table. -/
def lowerSingle (c : Char) : Char :=
  if c.toNat < 128 then c.toLower
  else
    match lowerCaseRuns.find? (·.holds c.toNat) with
    | some r => Char.ofNat (c.toNat + r.shift).toNat
    | none => c

/-- After the characters that a word-final test skips, a cased character comes next. -/
def casedAhead (cs : List Char) : Bool :=
  match cs.dropWhile (inRanges caseIgnorableRanges) with
  | [] => false
  | c :: _ => inRanges casedRanges c

/-- A capital sigma ends a word when a cased character precedes it and none follows. -/
def lowerSigma (before after : List Char) : Char :=
  if casedAhead before && !casedAhead after then 'ς' else 'σ'

/-- Lower case of `cs`, where `before` holds the characters already passed, the nearest first. -/
def lowerFrom (before : List Char) : List Char → List Char
  | [] => []
  | c :: rest =>
    (if c = 'Σ' then [lowerSigma before rest]
      else if c = 'İ' then ['i', '\u0307']
      else [lowerSingle c]) ++ lowerFrom (c :: before) rest

def lower (s : String) : String := String.ofList (lowerFrom [] s.toList)

/-- Lower case of the ASCII letters only. -/
def lowerAscii (s : String) : String := String.ofList (s.toList.map Char.toLower)

def eqIgnoringAsciiCase (a b : String) : Bool := lowerAscii a == lowerAscii b

/-- Equality of names, ignoring case. -/
def eqFold (a b : String) : Bool := eqIgnoringAsciiCase a b || lower a == lower b

/-! ### Laws -/

@[simp] theorem lowerFrom_nil (before : List Char) : lowerFrom before [] = [] := rfl

@[simp] theorem lower_empty : lower "" = "" := rfl

@[simp] theorem eqIgnoringAsciiCase_refl (a : String) : eqIgnoringAsciiCase a a = true := by
  simp [eqIgnoringAsciiCase]

@[simp] theorem eqFold_refl (a : String) : eqFold a a = true := by
  simp [eqFold]

theorem eqFold_comm (a b : String) : eqFold a b = eqFold b a := by
  simp only [eqFold, eqIgnoringAsciiCase, Bool.beq_comm]

end TenantSchema.Text
