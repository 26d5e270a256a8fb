import Mathlib.Data.List.TakeWhile
import TenantSchema.Number.Integer
import TenantSchema.Number.Power

/-!
# Integer literals

An integer literal is a sign, if any, and digits. Reading between two limits gives the number of a
literal that lies within them. Digits that lead beyond a limit decide at once, whatever follows, and
all other text is malformed.
-/

namespace TenantSchema.Number

/-! ### Literals -/

/-- What stands in front of a number. -/
inductive Sign where
  | absent
  | plus
  | minus
deriving DecidableEq, Repr

namespace Sign

def text : Sign → List Char
  | absent => []
  | plus => ['+']
  | minus => ['-']

/-- The number with this sign in front of `n`. -/
def apply : Sign → Int → Int
  | minus, n => -n
  | _, n => n

@[simp] theorem apply_absent (n : Int) : absent.apply n = n := rfl

@[simp] theorem apply_plus (n : Int) : plus.apply n = n := rfl

@[simp] theorem apply_minus (n : Int) : minus.apply n = -n := rfl

end Sign

/-- One or more digits. -/
structure IsNumeral (cs : List Char) : Prop where
  ne_nil : cs ≠ []
  digits : ∀ c ∈ cs, c.isDigit = true

/-- The number that digits stand for. -/
def numeralValue (digits : List Char) : Nat := Nat.ofDigitChars 10 digits 0

/-- The text is a literal of the number: a sign, if any, and digits. -/
def IsLiteral (cs : List Char) (n : Int) : Prop :=
  ∃ (sign : Sign) (digits : List Char),
    cs = sign.text ++ digits ∧ IsNumeral digits ∧ n = sign.apply (numeralValue digits)

/-- Digits behind the sign lead beyond the limits, and something that is no digit follows. -/
def BreaksOff (lo hi : Int) (sign : Sign) (cs : List Char) : Prop :=
  ∃ digits c rest, cs = sign.text ++ (digits ++ c :: rest) ∧ IsNumeral digits ∧
    c.isDigit = false ∧
    (sign.apply (numeralValue digits) < lo ∨ hi < sign.apply (numeralValue digits))

section Numerals

variable {c : Char} {cs digits : List Char}

theorem IsNumeral.exists_cons (h : IsNumeral digits) :
    ∃ d ds, digits = d :: ds ∧ d.isDigit = true ∧ d ≠ '+' ∧ d ≠ '-' := by
  obtain ⟨d, ds, rfl⟩ := List.exists_cons_of_ne_nil h.ne_nil
  have hd := h.digits d List.mem_cons_self
  refine ⟨d, ds, rfl, hd, ?_, ?_⟩
  · rintro rfl
    exact absurd hd (by decide)
  · rintro rfl
    exact absurd hd (by decide)

theorem IsNumeral.append_takeWhile (h : IsNumeral digits) (cs : List Char) :
    IsNumeral (digits ++ cs.takeWhile Char.isDigit) where
  ne_nil := List.append_ne_nil_of_left_ne_nil h.ne_nil _
  digits c hc := by
    rcases List.mem_append.mp hc with hc | hc
    · exact h.digits c hc
    · exact List.mem_takeWhile_imp hc

theorem digit?_of_isDigit (h : c.isDigit = true) : digit? c = some (c.toNat - '0'.toNat) := if_pos h

theorem digit?_of_not_isDigit (h : c.isDigit = false) : digit? c = none :=
  if_neg (by rw [h]; exact Bool.false_ne_true)

/-- More digits do not make a number less. -/
theorem le_ofDigitChars (acc : Nat) (cs : List Char) : acc ≤ Nat.ofDigitChars 10 cs acc := by
  induction cs generalizing acc with
  | nil => exact Nat.le_refl acc
  | cons c rest ih =>
    rw [Nat.ofDigitChars_cons]
    have hrest := ih (10 * acc + (c.toNat - '0'.toNat))
    omega

theorem numeralValue_append (front back : List Char) : numeralValue (front ++ back) =
    numeralValue front * tenPow back.length + numeralValue back := by
  unfold numeralValue
  rw [Nat.ofDigitChars_append, Nat.ofDigitChars_eq_ofDigitChars_zero, Nat.mul_comm]
  rfl

theorem numeralValue_lt (h : ∀ c ∈ digits, c.isDigit = true) :
    numeralValue digits < tenPow digits.length := by
  induction digits with
  | nil => exact Nat.one_pos
  | cons c rest ih =>
    have hrest := ih fun d hd => h d (List.mem_cons_of_mem c hd)
    have hc := Char.isDigit_iff_toNat.mp (h c List.mem_cons_self)
    have hfirst : numeralValue [c] ≤ 9 := by
      simp only [numeralValue, Nat.ofDigitChars_cons, Nat.ofDigitChars_nil]
      simp at hc ⊢
      omega
    have hscale := Nat.mul_le_mul_right (tenPow rest.length) hfirst
    have happend := numeralValue_append [c] rest
    rw [List.singleton_append] at happend
    rw [happend, List.length_cons, tenPow_succ]
    omega

end Numerals

/-! ### One direction at a time -/

/-- Upwards, the leading digits decide first and the rest of the text after them. -/
theorem readUp_eq {hi : Int} {acc : Nat} (hacc : acc ≤ hi) (cs : List Char) :
    readUp hi acc cs =
      if hi < Nat.ofDigitChars 10 (cs.takeWhile Char.isDigit) acc then .aboveRange
      else if (cs.dropWhile Char.isDigit).isEmpty then
        .value (Nat.ofDigitChars 10 (cs.takeWhile Char.isDigit) acc)
      else .malformed := by
  induction cs generalizing acc with
  | nil =>
    rw [List.takeWhile_nil, Nat.ofDigitChars_nil, if_neg (by omega)]
    rfl
  | cons c rest ih =>
    unfold readUp
    cases hc : c.isDigit with
    | false =>
      rw [digit?_of_not_isDigit hc, List.takeWhile_cons_of_neg (by simp [hc]),
        List.dropWhile_cons_of_neg (by simp [hc]), Nat.ofDigitChars_nil, if_neg (by omega)]
      rfl
    | true =>
      rw [digit?_of_isDigit hc, List.takeWhile_cons_of_pos hc, List.dropWhile_cons_of_pos hc,
        Nat.ofDigitChars_cons]
      dsimp only
      have hnext : (acc : Int) * 10 + (c.toNat - '0'.toNat : Nat) =
          (10 * acc + (c.toNat - '0'.toNat) : Nat) := by omega
      rw [hnext]
      generalize 10 * acc + (c.toNat - '0'.toNat) = next
      by_cases hbeyond : hi < next
      · have hgrow := le_ofDigitChars next (rest.takeWhile Char.isDigit)
        rw [if_pos hbeyond, if_pos (by omega)]
      · rw [if_neg hbeyond, ih (by omega)]

/-- The same text about the opposite number. -/
def IntegerText.mirror : IntegerText → IntegerText
  | .value n => .value (-n)
  | .aboveRange => .belowRange
  | .belowRange => .aboveRange
  | .malformed => .malformed

/-- Reading downwards is reading upwards on the other side of zero. -/
theorem readDown_eq_mirror (lo acc : Int) (cs : List Char) :
    readDown lo acc cs = (readUp (-lo) (-acc) cs).mirror := by
  induction cs generalizing acc with
  | nil =>
    show IntegerText.value acc = .value (- -acc)
    rw [Int.neg_neg]
  | cons c rest ih =>
    unfold readDown readUp
    cases digit? c with
    | none => rfl
    | some d =>
      dsimp only
      have hnext : -acc * 10 + d = -(acc * 10 - d) := by omega
      rw [hnext]
      by_cases hbeyond : acc * 10 - d < lo
      · rw [if_pos hbeyond, if_pos (by omega)]
        rfl
      · rw [if_neg hbeyond, if_neg (by omega), ih]

/-! ### Either direction -/

section Limits

variable {lo hi : Int} {sign : Sign} {cs digits tail : List Char}

theorem readInteger_of_ne {c : Char} (hplus : c ≠ '+') (hminus : c ≠ '-') (rest : List Char) :
    readInteger lo hi (c :: rest) = readUp hi 0 (c :: rest) := by
  unfold readInteger
  split
  · next h => cases h
  · next h => exact absurd (List.cons.inj h).1 hplus
  · next h => exact absurd (List.cons.inj h).1 hminus
  · next h => exact absurd (List.cons.inj h).1 hplus
  · next h => exact absurd (List.cons.inj h).1 hminus
  · rfl

/-- Digits behind a sign are read as far as they go. -/
theorem readInteger_numeral (hlo : lo ≤ 0) (hhi : 0 ≤ hi) (sign : Sign) (hdigits : IsNumeral digits)
    (htail : ∀ c ∈ tail.head?, c.isDigit = false) :
    readInteger lo hi (sign.text ++ (digits ++ tail)) =
      if hi < sign.apply (numeralValue digits) then .aboveRange
      else if sign.apply (numeralValue digits) < lo then .belowRange
      else if tail.isEmpty then .value (sign.apply (numeralValue digits))
      else .malformed := by
  have htake : (digits ++ tail).takeWhile Char.isDigit = digits := by
    rw [List.takeWhile_append_of_pos hdigits.digits]
    cases tail with
    | nil => rw [List.takeWhile_nil, List.append_nil]
    | cons c rest => rw [List.takeWhile_cons_of_neg (by simp [htail c rfl]), List.append_nil]
  have hdrop : (digits ++ tail).dropWhile Char.isDigit = tail := by
    rw [List.dropWhile_append_of_pos hdigits.digits]
    cases tail with
    | nil => rfl
    | cons c rest => rw [List.dropWhile_cons_of_neg (by simp [htail c rfl])]
  have hup (limit : Int) (hlimit : 0 ≤ limit) : readUp limit 0 (digits ++ tail) =
      if limit < numeralValue digits then .aboveRange
      else if tail.isEmpty then .value (numeralValue digits) else .malformed := by
    have hzero : ((0 : Nat) : Int) ≤ limit := hlimit
    have heq := readUp_eq hzero (digits ++ tail)
    rwa [htake, hdrop] at heq
  obtain ⟨d, ds, hcons, -, hplus, hminus⟩ := hdigits.exists_cons
  have hnat : (0 : Int) ≤ numeralValue digits := Int.natCast_nonneg _
  cases sign with
  | absent =>
    have hread : readInteger lo hi (Sign.absent.text ++ (digits ++ tail)) =
        readUp hi 0 (digits ++ tail) := by
      rw [hcons]
      exact readInteger_of_ne hplus hminus _
    rw [hread, hup hi hhi, Sign.apply_absent,
      if_neg (c := (numeralValue digits : Int) < lo) (by omega)]
  | plus =>
    have hread : readInteger lo hi (Sign.plus.text ++ (digits ++ tail)) =
        readUp hi 0 (digits ++ tail) := by
      rw [hcons]
      rfl
    rw [hread, hup hi hhi, Sign.apply_plus,
      if_neg (c := (numeralValue digits : Int) < lo) (by omega)]
  | minus =>
    have hread : readInteger lo hi (Sign.minus.text ++ (digits ++ tail)) =
        readDown lo 0 (digits ++ tail) := by
      rw [hcons]
      rfl
    rw [hread, readDown_eq_mirror, Int.neg_zero, hup (-lo) (by omega), Sign.apply_minus,
      if_neg (c := hi < -(numeralValue digits : Int)) (by omega)]
    by_cases hbelow : -(numeralValue digits : Int) < lo
    · rw [if_pos hbelow, if_pos (by omega)]
      rfl
    · rw [if_neg hbelow, if_neg (by omega)]
      cases tail <;> rfl

/-- Any text begins with digits behind a sign, which can be taken as far as they go, or it does not
and is malformed. -/
theorem readInteger_shape (lo hi : Int) (cs : List Char) :
    (∃ sign digits tail, cs = Sign.text sign ++ (digits ++ tail) ∧ IsNumeral digits ∧
      ∀ c ∈ tail.head?, c.isDigit = false) ∨
    (∀ sign digits tail, IsNumeral digits → cs ≠ Sign.text sign ++ (digits ++ tail)) ∧
      readInteger lo hi cs = .malformed := by
  by_cases h : ∃ sign digits tail, cs = Sign.text sign ++ (digits ++ tail) ∧ IsNumeral digits
  · obtain ⟨sign, digits, tail, rfl, hdigits⟩ := h
    refine .inl ⟨sign, digits ++ tail.takeWhile Char.isDigit, tail.dropWhile Char.isDigit, ?_,
      hdigits.append_takeWhile tail, fun c hc => ?_⟩
    · rw [List.append_assoc, List.takeWhile_append_dropWhile]
    · have hhead := List.head?_dropWhile_not Char.isDigit tail
      rw [Option.mem_def.mp hc] at hhead
      exact hhead
  · have hnone (sign : Sign) (digits tail : List Char) (hdigits : IsNumeral digits) :
        cs ≠ sign.text ++ (digits ++ tail) := fun heq => h ⟨sign, digits, tail, heq, hdigits⟩
    refine .inr ⟨hnone, ?_⟩
    have hfirst (sign : Sign) (c : Char) (rest : List Char) (heq : cs = sign.text ++ c :: rest) :
        digit? c = none := by
      refine digit?_of_not_isDigit (Bool.eq_false_iff.mpr fun hc => hnone sign [c] rest ?_ heq)
      exact ⟨List.cons_ne_nil _ _, by simpa using hc⟩
    unfold readInteger
    split
    · rfl
    · rfl
    · rfl
    · next rest hne =>
      obtain ⟨c, rest, rfl⟩ := List.exists_cons_of_ne_nil fun h => hne (h ▸ rfl)
      rw [readUp, hfirst .plus c rest rfl]
    · next rest hne =>
      obtain ⟨c, rest, rfl⟩ := List.exists_cons_of_ne_nil fun h => hne (h ▸ rfl)
      rw [readDown, hfirst .minus c rest rfl]
    · next hne _ _ _ _ =>
      obtain ⟨c, rest, rfl⟩ := List.exists_cons_of_ne_nil hne
      rw [readUp, hfirst .absent c rest rfl]

theorem IsLiteral.readInteger_eq {n : Int} (h : IsLiteral cs n) (hlo : lo ≤ 0) (hhi : 0 ≤ hi) :
    readInteger lo hi cs =
      if hi < n then .aboveRange else if n < lo then .belowRange else .value n := by
  obtain ⟨sign, digits, rfl, hdigits, rfl⟩ := h
  have hend : ∀ c ∈ ([] : List Char).head?, c.isDigit = false := nofun
  have hread := readInteger_numeral hlo hhi sign hdigits hend
  rw [List.append_nil] at hread
  exact hread

/-- A text is a literal of one number at most. -/
theorem IsLiteral.unique {n m : Int} (hn : IsLiteral cs n) (hm : IsLiteral cs m) : n = m := by
  have hlo : min n (min m 0) ≤ 0 := by omega
  have hhi : 0 ≤ max n (max m 0) := by omega
  have hread := (hn.readInteger_eq hlo hhi).symm.trans (hm.readInteger_eq hlo hhi)
  rw [if_neg (by omega), if_neg (by omega), if_neg (by omega), if_neg (by omega)] at hread
  exact IntegerText.value.inj hread

/-- Text that breaks off is no literal. -/
theorem not_isLiteral {c : Char} {rest : List Char} (sign : Sign) (hdigits : IsNumeral digits)
    (hc : c.isDigit = false) (n : Int) : ¬ IsLiteral (sign.text ++ (digits ++ c :: rest)) n := by
  intro h
  generalize hv : sign.apply (numeralValue digits) = v
  have hlo : min n (min v 0) ≤ 0 := by omega
  have hhi : 0 ≤ max n (max v 0) := by omega
  have htail : ∀ d ∈ (c :: rest).head?, d.isDigit = false := by simpa using hc
  have hread := readInteger_numeral hlo hhi sign hdigits htail
  rw [h.readInteger_eq hlo hhi, hv, if_neg (by omega), if_neg (by omega), if_neg (by omega),
    if_neg (by omega)] at hread
  cases hread

theorem BreaksOff.not_isLiteral (h : BreaksOff lo hi sign cs) (n : Int) : ¬ IsLiteral cs n := by
  obtain ⟨digits, c, rest, rfl, hdigits, hc, -⟩ := h
  exact Number.not_isLiteral sign hdigits hc n

/-- The side on which text with this sign leaves a range. -/
def Sign.beyond : Sign → IntegerText
  | minus => .belowRange
  | _ => .aboveRange

theorem BreaksOff.readInteger_eq (h : BreaksOff lo hi sign cs) (hlo : lo ≤ 0) (hhi : 0 ≤ hi) :
    readInteger lo hi cs = sign.beyond := by
  obtain ⟨digits, c, rest, rfl, hdigits, hc, hbeyond⟩ := h
  have hnat : (0 : Int) ≤ numeralValue digits := Int.natCast_nonneg _
  rw [readInteger_numeral hlo hhi sign hdigits (by simpa using hc)]
  cases sign with
  | absent =>
    rw [Sign.apply_absent] at hbeyond ⊢
    rw [if_pos (by omega)]
    rfl
  | plus =>
    rw [Sign.apply_plus] at hbeyond ⊢
    rw [if_pos (by omega)]
    rfl
  | minus =>
    rw [Sign.apply_minus] at hbeyond ⊢
    rw [if_neg (by omega), if_pos (by omega)]
    rfl

/-- A text is a literal, or breaks off beyond the limits, or is malformed. -/
theorem readInteger_cases (hlo : lo ≤ 0) (hhi : 0 ≤ hi) (cs : List Char) :
    (∃ n, IsLiteral cs n) ∨ (∃ sign, BreaksOff lo hi sign cs) ∨
      (∀ n, ¬ IsLiteral cs n) ∧ readInteger lo hi cs = .malformed := by
  rcases readInteger_shape lo hi cs with ⟨sign, digits, tail, rfl, hdigits, htail⟩ | ⟨hnone, hread⟩
  · cases tail with
    | nil =>
      rw [List.append_nil]
      exact .inl ⟨_, sign, digits, rfl, hdigits, rfl⟩
    | cons c rest =>
      have hc : c.isDigit = false := htail c rfl
      by_cases hbeyond : sign.apply (numeralValue digits) < lo ∨
          hi < sign.apply (numeralValue digits)
      · exact .inr (.inl ⟨sign, digits, c, rest, rfl, hdigits, hc, hbeyond⟩)
      · refine .inr (.inr ⟨not_isLiteral sign hdigits hc, ?_⟩)
        rw [readInteger_numeral hlo hhi sign hdigits htail, if_neg (by omega), if_neg (by omega)]
        rfl
  · refine .inr (.inr ⟨?_, hread⟩)
    rintro n ⟨sign, digits, heq, hdigits, -⟩
    exact hnone sign digits [] hdigits (by rw [heq, List.append_nil])

/-- Numbers are read from literals within the limits. -/
theorem readInteger_eq_value_iff (hlo : lo ≤ 0) (hhi : 0 ≤ hi) {n : Int} :
    readInteger lo hi cs = .value n ↔ IsLiteral cs n ∧ lo ≤ n ∧ n ≤ hi := by
  constructor
  · intro hread
    rcases readInteger_cases hlo hhi cs with ⟨m, hm⟩ | ⟨sign, hbreaks⟩ | ⟨-, hmalformed⟩
    · rw [hm.readInteger_eq hlo hhi] at hread
      split at hread
      · cases hread
      · split at hread
        · cases hread
        · cases hread
          exact ⟨hm, by omega, by omega⟩
    · rw [hbreaks.readInteger_eq hlo hhi] at hread
      cases sign <;> cases hread
    · rw [hmalformed] at hread
      cases hread
  · rintro ⟨h, hmin, hmax⟩
    rw [h.readInteger_eq hlo hhi, if_neg (by omega), if_neg (by omega)]

end Limits

end TenantSchema.Number
