import Mathlib.Algebra.Ring.Int.Defs
import TenantSchema.Proofs.DurationOverflow
import TenantSchema.Proofs.IntegerLiterals

/-!
# Numbers with signs

The numbers that durations are written with: digits, and decimals with a point, behind a sign or
none. What is read as a number is written as one, and a decimal comes to so many nanoseconds in any
unit, if the word holds them.
-/

namespace TenantSchema.Duration

open TenantSchema.Number

/-! ### Signs -/

/-- No character of the text is a sign. -/
def NoSigns (cs : List Char) : Prop := ∀ c ∈ cs, c ≠ '+' ∧ c ≠ '-'

section Signs

variable {cs cs' : List Char} {c : Char} {sign : Sign}

@[simp] theorem noSigns_nil : NoSigns [] := by simp [NoSigns]

@[simp] theorem noSigns_cons : NoSigns (c :: cs) ↔ (c ≠ '+' ∧ c ≠ '-') ∧ NoSigns cs := by
  simp [NoSigns]

@[simp] theorem noSigns_append : NoSigns (cs ++ cs') ↔ NoSigns cs ∧ NoSigns cs' :=
  List.forall_mem_append

@[simp] theorem noSigns_signText : NoSigns sign.text ↔ sign = .absent := by
  cases sign <;> simp [Sign.text]

theorem noSigns_of_digits (h : ∀ c ∈ cs, c.isDigit = true) : NoSigns cs := by
  intro c hc
  have hdigit := h c hc
  constructor <;>
  · rintro rfl
    exact absurd hdigit (by decide)

/-- Text does not begin with a sign. -/
def NoLeadingSign (cs : List Char) : Prop := NoSigns (cs.take 1)

theorem NoSigns.noLeadingSign (h : NoSigns cs) : NoLeadingSign cs :=
  fun c hc => h c (List.mem_of_mem_take hc)

theorem splitSign_of_noLeadingSign (h : NoLeadingSign cs) : splitSign cs = (false, cs) := by
  unfold splitSign
  split
  · simp [NoLeadingSign] at h
  · simp [NoLeadingSign] at h
  · rfl

/-- The sign that stands in front is split off. -/
theorem splitSign_text (h : sign = .absent → NoLeadingSign cs) :
    splitSign (sign.text ++ cs) = (decide (sign = .minus), cs) := by
  cases sign with
  | absent => exact splitSign_of_noLeadingSign (h rfl)
  | plus | minus => rfl

theorem exists_sign (token : List Char) :
    ∃ (sign : Sign) (body : List Char), token = sign.text ++ body ∧
      (sign = .absent → NoLeadingSign body) := by
  by_cases h : NoLeadingSign token
  · exact ⟨.absent, token, rfl, fun _ => h⟩
  · cases token with
    | nil => exact absurd noSigns_nil h
    | cons c rest =>
      by_cases hplus : c = '+'
      · exact ⟨.plus, rest, by rw [hplus]; rfl, nofun⟩
      · by_cases hminus : c = '-'
        · exact ⟨.minus, rest, by rw [hminus]; rfl, nofun⟩
        · exact absurd (by simp [NoLeadingSign, hplus, hminus]) h

end Signs

/-! ### Numbers with signs -/

/-- Digits behind a sign or none. -/
structure SignedNumeral where
  sign : Sign
  digits : List Char
  isNumeral : IsNumeral digits

/-- Digits, a point with digits, or both, behind a sign or none. -/
structure SignedDecimal where
  sign : Sign
  whole : List Char
  /-- What is behind the point, if there is one. -/
  fraction : Option (List Char)
  isNumeral : IsNumeral (whole ++ fraction.getD [])

namespace SignedNumeral

variable (p : SignedNumeral)

def text : List Char := p.sign.text ++ p.digits

def value : Int := p.sign.apply (numeralValue p.digits)

end SignedNumeral

namespace SignedDecimal

variable (d : SignedDecimal)

def body : List Char := d.whole ++ d.fraction.elim [] ('.' :: ·)

def text : List Char := d.sign.text ++ d.body

def digits : List Char := d.whole ++ d.fraction.getD []

/-- The decimal is the number of its digits divided by this. -/
def denominator : Nat := tenPow (d.fraction.getD []).length

/-- Nanoseconds of so many seconds, toward zero. -/
def magnitude : Nat := numeralValue d.digits * 1000000000 / d.denominator

def value : Int := d.sign.apply d.magnitude

end SignedDecimal

theorem within128_natCast (n : Nat) :
    within128 n = if (n : Int) ≤ maxInt128 then some (n : Int) else none := by
  unfold within128
  refine if_congr (and_iff_right ?_) rfl rfl
  unfold minInt128
  omega

namespace SignedDecimal

variable (d : SignedDecimal)

/-- The digits of the fraction that are kept. -/
def kept : List Char := (d.fraction.getD []).take keptDigits

def dropped : List Char := (d.fraction.getD []).drop keptDigits

def amount : Amount :=
  ⟨decide (d.sign = .minus), numeralValue d.whole, numeralValue d.kept, d.kept.length⟩

theorem isDigit_of_mem_whole {c : Char} (hc : c ∈ d.whole) : c.isDigit = true :=
  d.isNumeral.digits c (List.mem_append_left _ hc)

theorem isDigit_of_mem_fraction {c : Char} (hc : c ∈ d.fraction.getD []) : c.isDigit = true :=
  d.isNumeral.digits c (List.mem_append_right _ hc)

/-! What the digits that are dropped are worth depends on the unit. -/

theorem kept_append_dropped : d.kept ++ d.dropped = d.fraction.getD [] :=
  List.take_append_drop keptDigits _

theorem numeralValue_fraction : numeralValue (d.fraction.getD []) =
    numeralValue d.kept * tenPow d.dropped.length + numeralValue d.dropped := by
  rw [← kept_append_dropped, numeralValue_append]

theorem denominator_eq : d.denominator = tenPow d.kept.length * tenPow d.dropped.length := by
  rw [denominator, ← kept_append_dropped, List.length_append]
  exact Nat.pow_add 10 _ _

theorem numeralValue_kept_lt : numeralValue d.kept < tenPow d.kept.length :=
  numeralValue_lt fun _ hc => d.isDigit_of_mem_fraction (List.mem_of_mem_take hc)

theorem numeralValue_dropped_lt : numeralValue d.dropped < tenPow d.dropped.length :=
  numeralValue_lt fun _ hc => d.isDigit_of_mem_fraction (List.mem_of_mem_drop hc)

theorem kept_length_le : d.kept.length ≤ keptDigits := List.length_take_le _ _

/-- Digits are dropped only behind as many as are kept. -/
theorem dropped_eq_nil_or : d.dropped = [] ∨ d.kept.length = keptDigits := by
  by_cases hshort : (d.fraction.getD []).length ≤ keptDigits
  · exact .inl (List.drop_eq_nil_of_le hshort)
  · exact .inr (List.length_take_of_le (by omega))

/-- In units of so many nanoseconds: what the fraction has beyond the whole nanoseconds of its kept
digits, over the denominator. -/
def restIn (unit : Nat) : Nat :=
  numeralValue d.kept * unit % tenPow d.kept.length * tenPow d.dropped.length +
    numeralValue d.dropped * unit

theorem fraction_div (unit : Nat) : numeralValue (d.fraction.getD []) * unit / d.denominator =
    numeralValue d.kept * unit / tenPow d.kept.length + d.restIn unit / d.denominator := by
  have hdenominator : 0 < d.denominator := tenPow_pos _
  have hsplit : numeralValue (d.fraction.getD []) * unit =
      d.denominator * (numeralValue d.kept * unit / tenPow d.kept.length) + d.restIn unit := by
    have hkept := Nat.div_add_mod (numeralValue d.kept * unit) (tenPow d.kept.length)
    calc numeralValue (d.fraction.getD []) * unit
        = numeralValue d.kept * unit * tenPow d.dropped.length +
            numeralValue d.dropped * unit := by
          rw [numeralValue_fraction, Nat.add_mul, Nat.mul_right_comm]
      _ = (tenPow d.kept.length * (numeralValue d.kept * unit / tenPow d.kept.length) +
            numeralValue d.kept * unit % tenPow d.kept.length) * tenPow d.dropped.length +
            numeralValue d.dropped * unit := by
          rw [hkept]
      _ = d.denominator * (numeralValue d.kept * unit / tenPow d.kept.length) + d.restIn unit := by
          rw [Nat.add_mul, Nat.mul_right_comm, Nat.add_assoc, denominator_eq, restIn]
  rw [hsplit, Nat.mul_add_div hdenominator]

theorem restIn_lt_of_dropped_eq_nil {unit : Nat} (h : d.dropped = []) :
    d.restIn unit < d.denominator := by
  have hmod : numeralValue d.kept * unit % tenPow d.kept.length < tenPow d.kept.length :=
    Nat.mod_lt _ (tenPow_pos _)
  rw [restIn, denominator_eq, h]
  simpa [numeralValue] using hmod

/-- Where a unit is a whole part of what the kept digits resolve, the others are below a nanosecond. -/
theorem restIn_lt_of_dvd {unit : Nat} (hunit : unit ∣ tenPow keptDigits) :
    d.restIn unit < d.denominator := by
  rcases d.dropped_eq_nil_or with hnil | hfull
  · exact d.restIn_lt_of_dropped_eq_nil hnil
  · obtain ⟨parts, hparts⟩ := hunit
    have hpos : 0 < unit * parts := hparts ▸ tenPow_pos keptDigits
    have hunit : 0 < unit := Nat.pos_of_mul_pos_right hpos
    have hlt : numeralValue d.kept % parts < parts := Nat.mod_lt _ (Nat.pos_of_mul_pos_left hpos)
    rw [restIn, denominator_eq, hfull, hparts, Nat.mul_comm (numeralValue d.kept) unit,
      Nat.mul_mod_mul_left]
    calc unit * (numeralValue d.kept % parts) * tenPow d.dropped.length +
          numeralValue d.dropped * unit
        = unit * (numeralValue d.kept % parts * tenPow d.dropped.length +
            numeralValue d.dropped) := by
          rw [Nat.mul_add, Nat.mul_assoc, Nat.mul_comm (numeralValue d.dropped)]
      _ < unit * (numeralValue d.kept % parts * tenPow d.dropped.length +
            tenPow d.dropped.length) :=
          Nat.mul_lt_mul_of_pos_left (Nat.add_lt_add_left d.numeralValue_dropped_lt _) hunit
      _ = unit * ((numeralValue d.kept % parts + 1) * tenPow d.dropped.length) := by
          rw [Nat.add_mul, Nat.one_mul]
      _ ≤ unit * (parts * tenPow d.dropped.length) :=
          Nat.mul_le_mul_left _ (Nat.mul_le_mul_right _ hlt)
      _ = unit * parts * tenPow d.dropped.length := (Nat.mul_assoc ..).symm

/-- Digits behind those that are kept are below a nanosecond. -/
theorem fraction_div_eq : numeralValue (d.fraction.getD []) * 1000000000 / d.denominator =
    numeralValue d.kept * 1000000000 / tenPow d.kept.length := by
  rw [fraction_div, Nat.div_eq_of_lt (d.restIn_lt_of_dvd ⟨1000000000, rfl⟩), Nat.add_zero]

theorem magnitude_eq : d.magnitude = numeralValue d.whole * 1000000000 +
    numeralValue d.kept * 1000000000 / tenPow d.kept.length := by
  rw [← fraction_div_eq, magnitude, digits, numeralValue_append, Nat.add_mul, Nat.mul_right_comm,
    Nat.add_comm, denominator, Nat.add_mul_div_right _ _ (tenPow_pos _), Nat.add_comm]

theorem whole_le_magnitude : numeralValue d.whole * 1000000000 ≤ d.magnitude := by
  rw [magnitude_eq]
  exact Nat.le_add_right _ _

theorem noSigns_body : NoSigns d.body := by
  have hwhole := noSigns_of_digits fun _ => d.isDigit_of_mem_whole
  have hfraction := noSigns_of_digits fun _ => d.isDigit_of_mem_fraction
  unfold body
  cases hpoint : d.fraction with
  | none => simpa using hwhole
  | some f =>
    rw [hpoint] at hfraction
    simpa using ⟨hwhole, hfraction⟩

theorem splitSign_text : splitSign d.text = (decide (d.sign = .minus), d.body) :=
  Duration.splitSign_text fun _ => d.noSigns_body.noLeadingSign

/-- The point is where the digits of the whole part end. -/
theorem cut_body : d.body.takeWhile (· ≠ '.') = d.whole ∧
    (d.body.dropWhile (· ≠ '.')).drop 1 = d.fraction.getD [] := by
  have hno : ∀ c ∈ d.whole, decide (c ≠ '.') = true := by
    intro c hc
    refine decide_eq_true ?_
    rintro rfl
    exact absurd (d.isDigit_of_mem_whole hc) (by decide)
  unfold body
  rw [List.takeWhile_append_of_pos hno, List.dropWhile_append_of_pos hno]
  cases d.fraction <;> simp

theorem readAmount?_text :
    readAmount? d.text = (within128 (numeralValue d.whole)).map fun _ => d.amount := by
  have hsome : (d.whole.isEmpty && (d.fraction.getD []).isEmpty) = false := by
    rw [Bool.and_eq_false_iff, List.isEmpty_eq_false_iff, List.isEmpty_eq_false_iff]
    by_contra hnone
    exact d.isNumeral.ne_nil (by simp_all)
  have hwhole := List.all_eq_true.mpr fun _ => d.isDigit_of_mem_whole
  have hfraction := List.all_eq_true.mpr fun _ => d.isDigit_of_mem_fraction
  unfold readAmount?
  rw [d.splitSign_text]
  dsimp only
  rw [d.cut_body.1, d.cut_body.2, hsome, hwhole, hfraction, if_neg Bool.false_ne_true,
    if_neg (by decide)]
  show (within128 (numeralValue d.whole)).map _ = _
  cases hw : within128 (numeralValue d.whole) with
  | none => rfl
  | some w =>
    obtain ⟨rfl, -⟩ := within128_eq_some hw
    rfl

/-- Whatever is read as an amount is written as a decimal. -/
theorem exists_text {token : List Char} {a : Amount} (h : readAmount? token = some a) :
    ∃ d : SignedDecimal, d.text = token := by
  obtain ⟨sign, body, rfl, hsign⟩ := exists_sign token
  unfold readAmount? at h
  rw [Duration.splitSign_text hsign] at h
  dsimp only at h
  split at h
  · cases h
  · next hsome =>
    split at h
    · cases h
    · next hdigits =>
      generalize hwhole : body.takeWhile (· ≠ '.') = whole at hsome hdigits
      have hcut : whole ++ body.dropWhile (· ≠ '.') = body :=
        hwhole ▸ List.takeWhile_append_dropWhile
      cases htail : body.dropWhile (· ≠ '.') with
      | nil =>
        rw [htail] at hsome hdigits hcut
        refine ⟨⟨sign, whole, none, ?_, ?_⟩, congrArg (sign.text ++ ·) hcut⟩
        · simpa using hsome
        · simpa using hdigits
      | cons c fraction =>
        rw [htail] at hsome hdigits hcut
        have hpoint : c = '.' := by
          have hhead := List.head?_dropWhile_not (decide <| · ≠ '.') body
          rw [htail] at hhead
          simpa using hhead
        refine ⟨⟨sign, whole, some fraction, ?_, ?_⟩, congrArg (sign.text ++ ·) (hpoint ▸ hcut)⟩
        · simpa using hsome
        · simpa [or_imp, forall_and] using hdigits

/-! An amount is scaled exactly as long as the word holds the result. Units go up to a year, so that
the fraction alone never leaves the word. -/

/-- The amount is so many nanoseconds in units of `unit`, sign apart. -/
def magnitudeIn (unit : Int) : Int :=
  numeralValue d.whole * unit + numeralValue d.kept * unit / tenPow d.kept.length

def valueIn (unit : Int) : Int := d.sign.apply (d.magnitudeIn unit)

section Scale

variable {unit : Int}

theorem fraction_nonneg (hunit : 0 ≤ unit) :
    0 ≤ (numeralValue d.kept : Int) * unit / tenPow d.kept.length :=
  Int.ediv_nonneg (Int.mul_nonneg (Int.natCast_nonneg _) hunit) (Int.natCast_nonneg _)

theorem whole_le_magnitudeIn (hunit : 0 ≤ unit) :
    (numeralValue d.whole : Int) * unit ≤ d.magnitudeIn unit :=
  Int.le_add_of_nonneg_right (d.fraction_nonneg hunit)

theorem magnitudeIn_nonneg (hunit : 0 ≤ unit) : 0 ≤ d.magnitudeIn unit :=
  Int.le_trans (Int.mul_nonneg (Int.natCast_nonneg _) hunit) (d.whole_le_magnitudeIn hunit)

theorem within128_fraction (hunit : 0 ≤ unit) (hyear : unit ≤ year) :
    within128 (d.amount.fraction * unit) = some (numeralValue d.kept * unit : Int) := by
  have hkept : numeralValue d.kept < 1000000000 * 1000000000 :=
    Nat.lt_of_lt_of_le d.numeralValue_kept_lt (Nat.pow_le_pow_right (by decide) d.kept_length_le)
  have hle : (numeralValue d.kept : Int) * unit ≤ 1000000000000000000 * year :=
    Int.mul_le_mul (by omega) hyear hunit (by decide)
  apply within128_of_le
  · exact Int.mul_nonneg (Int.natCast_nonneg _) hunit
  · exact Int.le_trans hle (by decide)

theorem scale?_amount_in (hunit : 0 ≤ unit) (hyear : unit ≤ year) :
    d.amount.scale? unit =
      if d.magnitudeIn unit ≤ maxInt128 then pure (d.valueIn unit) else failure := by
  have hlow := d.whole_le_magnitudeIn hunit
  have hnonneg := d.magnitudeIn_nonneg hunit
  have htotal : within128 (d.amount.whole * unit + numeralValue d.kept * unit /
      tenPow d.amount.fractionDigits) = within128 (d.magnitudeIn unit) := rfl
  unfold Amount.scale?
  rw [d.within128_fraction hunit hyear]
  by_cases hle : d.magnitudeIn unit ≤ maxInt128
  · have hwhole : within128 (d.amount.whole * unit) = some (d.amount.whole * unit) :=
      within128_of_le (Int.mul_nonneg (Int.natCast_nonneg _) hunit) (Int.le_trans hlow hle)
    have hmin : d.magnitudeIn unit ≠ minInt128 := by
      unfold minInt128
      omega
    rw [hwhole, if_pos hle]
    simp only [lift_some, pure_bind]
    rw [htotal, within128_of_le hnonneg hle, lift_some, pure_bind]
    unfold valueIn
    cases hsign : d.sign <;> simp [amount, hsign, negate_of_ne hmin]
  · have hnone : within128 (d.magnitudeIn unit) = none := if_neg fun hword => hle hword.2
    rw [if_neg hle]
    cases hwhole : within128 (d.amount.whole * unit) with
    | none => rfl
    | some whole =>
      obtain ⟨rfl, -⟩ := within128_eq_some hwhole
      simp only [lift_some, pure_bind]
      rw [htotal, hnone]
      rfl

/-- No product leaves the word, and no sum. -/
structure FitsIn (unit : Int) : Prop where
  whole : InWord (numeralValue d.whole * unit)
  fraction : InWord (numeralValue d.kept * unit)
  magnitude : InWord (d.magnitudeIn unit)

theorem fitsIn_iff (hunit : 0 ≤ unit) (hyear : unit ≤ year) :
    d.FitsIn unit ↔ d.magnitudeIn unit ≤ maxInt128 := by
  constructor
  · exact fun h => h.magnitude.2
  · intro hle
    have hword (n : Int) (hnonneg : 0 ≤ n) (hmax : n ≤ maxInt128) : InWord n := by
      refine ⟨?_, hmax⟩
      unfold minInt128
      omega
    have hwhole : 0 ≤ (numeralValue d.whole : Int) * unit :=
      Int.mul_nonneg (Int.natCast_nonneg _) hunit
    have hlow := d.whole_le_magnitudeIn hunit
    refine ⟨hword _ hwhole (by omega), ?_, hword _ (d.magnitudeIn_nonneg hunit) hle⟩
    exact (within128_eq_some_iff.mp (d.within128_fraction hunit hyear)).1

/-- An amount is read and scaled. -/
theorem readAmount?_scale? (hunit : 1 ≤ unit) (hyear : unit ≤ year) :
    (do (← readAmount? d.text).scale? unit : Reading Int) =
      if d.magnitudeIn unit ≤ maxInt128 then pure (d.valueIn unit) else failure := by
  have hnonneg : 0 ≤ unit := by omega
  rw [readAmount?_text, within128_natCast]
  by_cases hwhole : (numeralValue d.whole : Int) ≤ maxInt128
  · rw [if_pos hwhole, Option.map_some, lift_some, pure_bind, d.scale?_amount_in hnonneg hyear]
  · have hlow : (numeralValue d.whole : Int) * 1 ≤ numeralValue d.whole * unit :=
      Int.mul_le_mul_of_nonneg_left hunit (Int.natCast_nonneg _)
    have hle := d.whole_le_magnitudeIn hnonneg
    rw [if_neg hwhole, if_neg (by omega)]
    rfl

/-- As an amount the decimal is scaled to its value, or not at all. -/
theorem scale?_cases (hunit : 1 ≤ unit) (hyear : unit ≤ year) :
    d.FitsIn unit ∧ (do (← readAmount? d.text).scale? unit : Reading Int) = pure (d.valueIn unit) ∨
      ¬ d.FitsIn unit ∧ (do (← readAmount? d.text).scale? unit : Reading Int) = failure := by
  rw [d.readAmount?_scale? hunit hyear, d.fitsIn_iff (by omega) hyear]
  by_cases hle : d.magnitudeIn unit ≤ maxInt128
  · exact .inl ⟨hle, if_pos hle⟩
  · exact .inr ⟨hle, if_neg hle⟩

/-- What is made of the value, if the decimal comes to it. -/
theorem scale?_bind_eq (hunit : 1 ≤ unit) (hyear : unit ≤ year) {m : Reading Int}
    (hm : m ≠ failure) {k : Int → Reading Int} :
    (do k (← (← readAmount? d.text).scale? unit) : Reading Int) = m ↔
      d.FitsIn unit ∧ k (d.valueIn unit) = m := by
  rw [← bind_assoc]
  rcases d.scale?_cases hunit hyear with ⟨hfits, hscale⟩ | ⟨hfits, hscale⟩
  · rw [hscale, pure_bind, and_iff_right hfits]
  · rw [hscale]
    exact iff_of_false (fun h => hm h.symm) fun h => hfits h.1

end Scale

/-- Seconds, where the fraction is cut without a loss. -/
theorem magnitudeIn_second : d.magnitudeIn second = d.magnitude := by
  have hsecond : second = ((1000000000 : Nat) : Int) := rfl
  rw [magnitude_eq, magnitudeIn, hsecond]
  rfl

theorem valueIn_second : d.valueIn second = d.value := by
  rw [valueIn, magnitudeIn_second, value]

theorem scale?_amount :
    d.amount.scale? second = if (d.magnitude : Int) ≤ maxInt128 then pure d.value else failure := by
  rw [d.scale?_amount_in (by decide) (by decide), magnitudeIn_second, valueIn_second]

/-- The seconds of a clock. -/
theorem readSeconds_text : (do (← readAmount? d.text).scale? second : Reading Int) =
    if (d.magnitude : Int) ≤ maxInt128 then pure d.value else failure := by
  rw [d.readAmount?_scale? (by decide) (by decide), magnitudeIn_second, valueIn_second]

end SignedDecimal

namespace SignedNumeral

variable (p : SignedNumeral)

/-- Hours and minutes are read as they are written, if the word holds them. -/
theorem clockPart?_text : clockPart? p.text = within128 p.value := by
  have hliteral : IsLiteral p.text p.value := ⟨p.sign, p.digits, rfl, p.isNumeral, rfl⟩
  have hlimits : minInt128 ≤ maxInt128 := by decide
  unfold clockPart? within128
  rw [hliteral.readInteger_eq (by decide) (by decide)]
  by_cases hbelow : p.value < minInt128
  · rw [if_neg (by omega), if_pos hbelow, if_neg (by omega)]
    rfl
  · by_cases habove : maxInt128 < p.value
    · rw [if_pos habove, if_neg (by omega)]
      rfl
    · rw [if_neg habove, if_neg hbelow, if_pos (by omega)]
      rfl

theorem exists_text {cs : List Char} {n : Int} (h : clockPart? cs = some n) :
    ∃ p : SignedNumeral, p.text = cs := by
  have hread := readInteger_of_clockPart? h
  obtain ⟨⟨sign, digits, rfl, hdigits, -⟩, -⟩ :=
    (readInteger_eq_value_iff (by decide) (by decide)).mp hread
  exact ⟨⟨sign, digits, hdigits⟩, rfl⟩

end SignedNumeral

/-! ### Partial sums -/

/-- Numbers are added to `start` one by one, and no sum leaves the word. -/
def SumsFit (start : Int) (ns : List Int) : Prop :=
  ∀ front, front <+: ns → InWord (start + front.sum)

theorem sumsFit_nil {start : Int} : SumsFit start [] ↔ InWord start := by
  simp [SumsFit]

theorem sumsFit_cons {start n : Int} {ns : List Int} :
    SumsFit start (n :: ns) ↔ InWord start ∧ SumsFit (start + n) ns := by
  constructor
  · intro h
    refine ⟨by simpa using h [] List.nil_prefix, fun front hfront => ?_⟩
    have hword := h (n :: front) (List.cons_prefix_cons.mpr ⟨rfl, hfront⟩)
    rwa [List.sum_cons, ← Int.add_assoc] at hword
  · rintro ⟨hstart, hrest⟩ front hfront
    cases front with
    | nil => simpa using hstart
    | cons m front =>
      obtain ⟨rfl, hprefix⟩ := List.cons_prefix_cons.mp hfront
      rw [List.sum_cons, ← Int.add_assoc]
      exact hrest front hprefix

theorem SumsFit.inWord_start {start : Int} {ns : List Int} (h : SumsFit start ns) :
    InWord start := by
  simpa using h [] List.nil_prefix

theorem sumsFit_append {start : Int} {ns ns' : List Int} :
    SumsFit start (ns ++ ns') ↔ SumsFit start ns ∧ SumsFit (start + ns.sum) ns' := by
  induction ns generalizing start with
  | nil =>
    rw [List.nil_append, List.sum_nil, Int.add_zero, sumsFit_nil]
    exact ⟨fun h => ⟨h.inWord_start, h⟩, fun h => h.2⟩
  | cons n ns ih =>
    rw [List.cons_append, sumsFit_cons, sumsFit_cons, ih, List.sum_cons, Int.add_assoc, and_assoc]

/-! ### Characters of numbers -/

theorem SignedNumeral.colon_notMem (p : SignedNumeral) : ':' ∉ p.text := by
  intro hcolon
  rcases List.mem_append.mp hcolon with hsign | hdigit
  · revert hsign
    cases p.sign <;> decide
  · exact absurd (p.isNumeral.digits _ hdigit) (by decide)

namespace SignedDecimal

variable (d : SignedDecimal)

theorem isAmountChar_of_mem_body {c : Char} (hc : c ∈ d.body) : isAmountChar c = true := by
  have hfraction := @d.isDigit_of_mem_fraction c
  rcases List.mem_append.mp hc with hwhole | hpoint
  · exact isAmountChar_of_isDigit (d.isDigit_of_mem_whole hwhole)
  · cases hf : d.fraction with
    | none => simp [hf] at hpoint
    | some f =>
      rw [hf] at hpoint hfraction
      rcases List.mem_cons.mp hpoint with rfl | hdigit
      · rfl
      · exact isAmountChar_of_isDigit (hfraction hdigit)

theorem body_ne_nil : d.body ≠ [] := by
  intro hnil
  obtain ⟨hwhole, hpoint⟩ := List.append_eq_nil_iff.mp hnil
  apply d.isNumeral.ne_nil
  cases hf : d.fraction with
  | none => simp [hwhole]
  | some f => simp [hf] at hpoint

theorem text_of_unsigned (h : d.sign = .absent) : d.text = d.body := by
  rw [text, h]
  rfl

/-- A sign is no part of an amount. -/
theorem unsigned_of_forall (h : ∀ c ∈ d.text, isAmountChar c = true) : d.sign = .absent := by
  unfold text at h
  cases hsign : d.sign with
  | absent => rfl
  | plus => exact absurd (h '+' (by simp [hsign, Sign.text])) (by decide)
  | minus => exact absurd (h '-' (by simp [hsign, Sign.text])) (by decide)

theorem mem_text {c : Char} (hc : c ∈ d.text) : c = '+' ∨ c = '-' ∨ isAmountChar c = true := by
  rcases List.mem_append.mp hc with hsign | hbody
  · revert hsign
    cases d.sign <;> simp +contextual [Sign.text]
  · exact .inr (.inr (d.isAmountChar_of_mem_body hbody))

theorem colon_notMem : ':' ∉ d.text := by
  intro hcolon
  rcases d.mem_text hcolon with hsign | hsign | hamount
  · exact absurd hsign (by decide)
  · exact absurd hsign (by decide)
  · exact absurd hamount (by decide)

end SignedDecimal

end TenantSchema.Duration
