import Mathlib.Data.List.DropRight
import TenantSchema.Duration.Literal
import TenantSchema.Duration.Printer
import TenantSchema.Proofs.TrimmedText

/-!
# Reading a printed duration

What `print` writes is no interval literal, and its pairs of amount and unit add up to the magnitude
again. So a printed span is read back as it was, as long as a 64-bit word holds its nanoseconds.
-/

namespace TenantSchema.Duration

open TenantSchema.Number

theorem within128_of_le {n : Int} (hnonneg : 0 ≤ n) (hmax : n ≤ maxInt128) :
    within128 n = some n := by
  unfold within128 minInt128
  exact if_pos ⟨by omega, hmax⟩

/-! ### Decimals -/

section Decimals

theorem isDigit_of_mem_toDigits (n : Nat) : ∀ c ∈ Nat.toDigits 10 n, c.isDigit = true :=
  fun _ => Nat.isDigit_of_mem_toDigits (by decide) (by decide)

/-- A fraction written with all its digits. -/
def paddedDigits (fraction width : Nat) : List Char :=
  List.replicate (width - (Nat.toDigits 10 fraction).length) '0' ++ Nat.toDigits 10 fraction

/-- The digits of a fraction that are printed. -/
def trimmedDigits (fraction width : Nat) : List Char :=
  (paddedDigits fraction width).rdropWhile (· = '0')

theorem printDecimal_eq (whole fraction width : Nat) :
    printDecimal whole fraction width = Nat.toDigits 10 whole ++
      if fraction = 0 then [] else '.' :: trimmedDigits fraction width := rfl

theorem isDigit_of_mem_trimmedDigits {fraction width : Nat} {c : Char}
    (h : c ∈ trimmedDigits fraction width) : c.isDigit = true := by
  have hpadded : c ∈ paddedDigits fraction width := (List.rdropWhile_prefix _ _).subset h
  rcases List.mem_append.mp hpadded with hzero | hdigit
  · rw [List.eq_of_mem_replicate hzero]
    rfl
  · exact isDigit_of_mem_toDigits _ _ hdigit

/-- The zeros that are left out stand for a power of ten. -/
theorem exists_zeros_trimmedDigits {fraction width : Nat} (hlt : fraction < tenPow width)
    (hwidth : 0 < width) :
    ∃ zeros, (trimmedDigits fraction width).length + zeros = width ∧
      Nat.ofDigitChars 10 (trimmedDigits fraction width) 0 * tenPow zeros = fraction := by
  have hlength : (Nat.toDigits 10 fraction).length ≤ width :=
    (Nat.length_toDigits_le_iff (by decide) hwidth).mpr hlt
  obtain ⟨zeros, hzeros⟩ : ∃ zeros, paddedDigits fraction width =
      trimmedDigits fraction width ++ List.replicate zeros '0' := by
    refine ⟨((paddedDigits fraction width).rtakeWhile (· = '0')).length, ?_⟩
    have hcut : (paddedDigits fraction width).rtakeWhile (· = '0') = List.replicate _ '0' :=
      List.eq_replicate_of_mem fun c hc => by simpa using List.mem_rtakeWhile_imp hc
    rw [← hcut]
    exact (List.rdropWhile_append_rtakeWhile).symm
  refine ⟨zeros, ?_, ?_⟩
  · have hlen := congrArg List.length hzeros
    simp only [paddedDigits, List.length_append, List.length_replicate] at hlen
    omega
  · have hvalue := congrArg (Nat.ofDigitChars 10 · 0) hzeros
    simp only [paddedDigits, Nat.ofDigitChars_append, Nat.ofDigitChars_replicate_zero,
      Nat.mul_zero, Nat.ofDigitChars_ten_toDigits] at hvalue
    rw [Nat.mul_comm]
    exact hvalue.symm

/-- The text is an amount, and that many nanoseconds in units of `unit`. -/
def Reads (text : List Char) (unit nanos : Int) : Prop :=
  ∃ amount, readAmount? text = some amount ∧ amount.scale? unit = pure nanos

/-- Digits, and digits behind a point if there is one. -/
theorem readAmount?_append {whole : List Char} (tail : List Char) (hne : whole ≠ [])
    (hwhole : ∀ c ∈ whole, c.isDigit = true) (hpoint : tail.takeWhile (· ≠ '.') = [])
    (hfraction : ∀ c ∈ tail.drop 1, c.isDigit = true) (hkept : (tail.drop 1).length ≤ keptDigits)
    (hmax : (Nat.ofDigitChars 10 whole 0 : Int) ≤ maxInt128) :
    readAmount? (whole ++ tail) = some ⟨false, Nat.ofDigitChars 10 whole 0,
      Nat.ofDigitChars 10 (tail.drop 1) 0, (tail.drop 1).length⟩ := by
  obtain ⟨c, digits, rfl⟩ := List.exists_cons_of_ne_nil hne
  have hsign : splitSign (c :: digits ++ tail) = (false, c :: digits ++ tail) := by
    have hc := hwhole c List.mem_cons_self
    unfold splitSign
    split
    · next heq => cases heq; exact absurd hc (by decide)
    · next heq => cases heq; exact absurd hc (by decide)
    · rfl
  have hno : ∀ d ∈ c :: digits, decide (d ≠ '.') = true := by
    intro d hd
    have hdigit := hwhole d hd
    refine decide_eq_true fun heq => ?_
    rw [heq] at hdigit
    exact absurd hdigit (by decide)
  have htail : tail.dropWhile (· ≠ '.') = tail := by
    have happend := List.takeWhile_append_dropWhile (p := (decide <| · ≠ '.')) (l := tail)
    rwa [hpoint] at happend
  unfold readAmount?
  rw [hsign]
  dsimp only
  rw [List.takeWhile_append_of_pos hno, List.dropWhile_append_of_pos hno, hpoint, htail,
    List.append_nil, List.take_of_length_le hkept, List.all_eq_true.mpr hwhole,
    List.all_eq_true.mpr hfraction, within128_of_le (by omega) hmax]
  rfl

theorem reads_toDigits {n : Nat} {unit : Int} (hunit : 0 < unit) (hmax : n * unit ≤ maxInt128) :
    Reads (Nat.toDigits 10 n) unit (n * unit) := by
  have hle : (n : Int) * 1 ≤ n * unit := Int.mul_le_mul_of_nonneg_left hunit (by omega)
  have hread := readAmount?_append [] Nat.toDigits_ne_nil (isDigit_of_mem_toDigits n) rfl
    (by simp) (by simp) (by rw [Nat.ofDigitChars_ten_toDigits]; omega)
  rw [List.append_nil, Nat.ofDigitChars_ten_toDigits] at hread
  refine ⟨_, hread, ?_⟩
  have hnonneg : 0 ≤ n * unit := by omega
  have hzero : within128 0 = some 0 := by decide
  simp [Amount.scale?, within128_of_le hnonneg hmax, hzero]

/-- A fraction of some digits, with the zeros that the unit has beyond them. -/
theorem scale?_decimal {whole kept digits zeros fraction width : Nat}
    (hlength : digits + zeros = width) (hwidth : width ≤ 9) (hlt : fraction < tenPow width)
    (hvalue : kept * tenPow zeros = fraction)
    (hmax : (whole * tenPow width + fraction : Int) ≤ maxInt128) :
    Amount.scale? ⟨false, whole, kept, digits⟩ (tenPow width) =
      pure (whole * tenPow width + fraction : Int) := by
  -- the unit is as many powers of ten as the fraction has digits, and those of the zeros
  have hsplit : kept * tenPow width / tenPow digits = fraction := by
    have hpow : tenPow (digits + zeros) = tenPow digits * tenPow zeros := Nat.pow_add 10 _ _
    rw [← hlength, hpow, Nat.mul_left_comm, Nat.mul_div_cancel_left _ (tenPow_pos _), hvalue]
  have hfraction : ((kept : Int) * tenPow width) / tenPow digits = fraction := by
    exact_mod_cast hsplit
  have hsmall : kept * tenPow width ≤ 1000000000 * 1000000000 := by
    have hscale : tenPow width ≤ 1000000000 := Nat.pow_le_pow_right (by decide) hwidth
    have hkept := Nat.le_mul_of_pos_right kept (tenPow_pos zeros)
    exact Nat.mul_le_mul (by omega) hscale
  have hkept : within128 (kept * tenPow width) = some (kept * tenPow width : Int) := by
    rw [← Int.natCast_mul]
    refine within128_of_le (by omega) ?_
    unfold maxInt128
    omega
  have hwhole : 0 ≤ (whole : Int) * tenPow width := by
    exact_mod_cast Nat.zero_le (whole * tenPow width)
  simp only [Amount.scale?, within128_of_le hwhole (by omega), hkept, lift_some, pure_bind,
    hfraction, within128_of_le (by omega) hmax]
  rfl

/-- A whole number and its printed fraction, in units that the fraction can resolve. -/
theorem reads_printDecimal {whole fraction width : Nat} (hlt : fraction < tenPow width)
    (hpos : 0 < width) (hwidth : width ≤ 9)
    (hmax : (whole * tenPow width + fraction : Int) ≤ maxInt128) :
    Reads (printDecimal whole fraction width) (tenPow width)
      (whole * tenPow width + fraction) := by
  have hunit : (0 : Int) < tenPow width := by exact_mod_cast tenPow_pos width
  rw [printDecimal_eq]
  by_cases hzero : fraction = 0
  · subst hzero
    rw [if_pos rfl, List.append_nil, Int.natCast_zero, Int.add_zero] at *
    exact reads_toDigits hunit hmax
  rw [if_neg hzero]
  obtain ⟨zeros, hlength, hvalue⟩ := exists_zeros_trimmedDigits hlt hpos
  have hle : (whole : Int) * 1 ≤ whole * tenPow width :=
    Int.mul_le_mul_of_nonneg_left hunit (by omega)
  have hread := readAmount?_append ('.' :: trimmedDigits fraction width) Nat.toDigits_ne_nil
    (isDigit_of_mem_toDigits whole) rfl (fun _ => isDigit_of_mem_trimmedDigits)
    (by simp only [List.drop_one, List.tail_cons, keptDigits]; omega)
    (by rw [Nat.ofDigitChars_ten_toDigits]; omega)
  rw [Nat.ofDigitChars_ten_toDigits, List.drop_one, List.tail_cons] at hread
  exact ⟨_, hread, scale?_decimal hlength hwidth hlt hvalue hmax⟩

end Decimals

/-! ### Pairs of amount and unit -/

section Pairs

/-- The characters of printed amounts. -/
theorem isAmountChar_of_isDigit {c : Char} (h : c.isDigit = true) : isAmountChar c = true := by
  rw [isAmountChar, h, Bool.true_or]

theorem isAmountChar_of_mem_printDecimal {whole fraction width : Nat} :
    ∀ c ∈ printDecimal whole fraction width, isAmountChar c = true := by
  intro c hc
  rw [printDecimal_eq] at hc
  rcases List.mem_append.mp hc with hwhole | hfraction
  · exact isAmountChar_of_isDigit (isDigit_of_mem_toDigits _ _ hwhole)
  · split at hfraction
    · cases hfraction
    · rcases List.mem_cons.mp hfraction with rfl | hdigit
      · rfl
      · exact isAmountChar_of_isDigit (isDigit_of_mem_trimmedDigits hdigit)

/-- Text at which the next pair may begin. -/
def StartsPair (text : List Char) : Prop := ∀ c ∈ text.head?, isAmountChar c = true

/-- A pair is read from the front, and reading goes on behind it. -/
theorem sumCompact?_append {amount unit : List Char} (total : Int) (rest : List Char)
    (hamount : ∀ c ∈ amount, isAmountChar c = true) (hne : amount ≠ [])
    (hunit : unit.all (!isAmountChar ·) = true) (hunitNe : unit ≠ []) (hrest : StartsPair rest) :
    sumCompact? total (amount ++ (unit ++ rest)) = (do
      let value ← readAmount? amount
      let perUnit ← compactUnit? unit
      let total ← within128 (total + (← value.scale? perUnit))
      sumCompact? total rest) := by
  obtain ⟨a, as, rfl⟩ := List.exists_cons_of_ne_nil hne
  obtain ⟨u, us, rfl⟩ := List.exists_cons_of_ne_nil hunitNe
  have has : ∀ c ∈ as, isAmountChar c = true := fun c hc => hamount c (List.mem_cons_of_mem _ hc)
  have hus : ∀ c ∈ u :: us, (!isAmountChar c) = true := List.all_eq_true.mp hunit
  have hu : isAmountChar u = false := by simpa using hus u List.mem_cons_self
  -- the amount ends at the unit, and the unit where the next amount begins
  have hamountEnd : (as ++ (u :: us ++ rest)).takeWhile isAmountChar = as := by
    rw [List.takeWhile_append_of_pos has, List.cons_append, List.takeWhile_cons_of_neg (by simp [hu]),
      List.append_nil]
  have hunitStart : (as ++ (u :: us ++ rest)).dropWhile isAmountChar = u :: us ++ rest := by
    rw [List.dropWhile_append_of_pos has, List.cons_append, List.dropWhile_cons_of_neg (by simp [hu])]
  have hunitEnd : (u :: us ++ rest).takeWhile (!isAmountChar ·) = u :: us := by
    rw [List.takeWhile_append_of_pos hus]
    cases rest with
    | nil => rw [List.takeWhile_nil, List.append_nil]
    | cons c cs => rw [List.takeWhile_cons_of_neg (by simp [hrest c rfl]), List.append_nil]
  have hbehind : behindPair (as ++ (u :: us ++ rest)) = rest := by
    rw [behindPair, hunitStart, List.dropWhile_append_of_pos hus]
    cases rest with
    | nil => rfl
    | cons c cs => rw [List.dropWhile_cons_of_neg (by simp [hrest c rfl])]
  rw [List.cons_append, sumCompact?, if_pos (hamount a List.mem_cons_self), hamountEnd, hunitStart,
    hunitEnd, hbehind]

/-- An amount with its unit adds its nanoseconds. -/
theorem sumCompact?_pair {amount unit : List Char} (rest : List Char)
    {total perUnit nanos : Int} (hamount : ∀ c ∈ amount, isAmountChar c = true) (hne : amount ≠ [])
    (hunit : unit.all (!isAmountChar ·) = true) (hunitNe : unit ≠ [])
    (hrest : StartsPair rest) (hread : Reads amount perUnit nanos)
    (hper : compactUnit? unit = some perUnit) (hnonneg : 0 ≤ total + nanos)
    (hmax : total + nanos ≤ maxInt128) :
    sumCompact? total (amount ++ (unit ++ rest)) = sumCompact? (total + nanos) rest := by
  obtain ⟨value, hvalue, hscale⟩ := hread
  rw [sumCompact?_append total rest hamount hne hunit hunitNe hrest, hvalue, hper]
  simp only [lift_some, pure_bind, hscale, within128_of_le hnonneg hmax]

/-- The last pair. -/
theorem sumCompact?_last {amount unit : List Char} {total perUnit nanos : Int}
    (hamount : ∀ c ∈ amount, isAmountChar c = true) (hne : amount ≠ [])
    (hunit : unit.all (!isAmountChar ·) = true) (hunitNe : unit ≠ [])
    (hread : Reads amount perUnit nanos) (hper : compactUnit? unit = some perUnit)
    (hnonneg : 0 ≤ total + nanos) (hmax : total + nanos ≤ maxInt128) :
    sumCompact? total (amount ++ unit) = pure (total + nanos) := by
  have hpair := sumCompact?_pair [] hamount hne hunit hunitNe (by simp [StartsPair]) hread hper
    hnonneg hmax
  rwa [List.append_nil, sumCompact?] at hpair

/-- A whole number of units that is left out when it is zero. -/
theorem sumCompact?_optional {shown : Prop} [Decidable shown] {n : Nat} {unit : Char}
    {total : Int} (perUnit : Int) {rest : List Char} (hhidden : ¬shown → n = 0)
    (hunit : isAmountChar unit = false) (hrest : StartsPair rest)
    (hper : compactUnit? [unit] = some perUnit) (hpos : 0 < perUnit) (htotal : 0 ≤ total)
    (hmax : total + n * perUnit ≤ maxInt128) :
    sumCompact? total ((if shown then Nat.toDigits 10 n ++ [unit] else []) ++ rest) =
      sumCompact? (total + n * perUnit) rest := by
  by_cases hshown : shown
  · have hnonneg : 0 ≤ n * perUnit := Int.mul_nonneg (by omega) (by omega)
    rw [if_pos hshown, List.append_assoc]
    exact sumCompact?_pair rest (fun c hc => isAmountChar_of_isDigit (isDigit_of_mem_toDigits n c hc))
      Nat.toDigits_ne_nil (by simp [hunit]) (by simp) hrest (reads_toDigits hpos (by omega)) hper
      (by omega) hmax
  · rw [if_neg hshown, hhidden hshown, Int.natCast_zero, Int.zero_mul, Int.add_zero, List.nil_append]

theorem printDecimal_ne_nil (whole fraction width : Nat) : printDecimal whole fraction width ≠ [] :=
  List.append_ne_nil_of_left_ne_nil Nat.toDigits_ne_nil _

theorem startsPair_append {amount rest : List Char} (hne : amount ≠ [])
    (h : ∀ c ∈ amount, isAmountChar c = true) : StartsPair (amount ++ rest) := by
  obtain ⟨a, as, rfl⟩ := List.exists_cons_of_ne_nil hne
  intro c hc
  cases hc
  exact h a List.mem_cons_self

theorem startsPair_optional {shown : Prop} [Decidable shown] {n : Nat} {unit rest : List Char}
    (hrest : StartsPair rest) :
    StartsPair ((if shown then Nat.toDigits 10 n ++ unit else []) ++ rest) := by
  split
  · rw [List.append_assoc]
    exact startsPair_append Nat.toDigits_ne_nil fun c hc =>
      isAmountChar_of_isDigit (isDigit_of_mem_toDigits n c hc)
  · exact hrest

end Pairs

/-! ### Magnitudes -/

section Magnitudes

/-- A single unit below the second. -/
theorem sumCompact?_printDecimal {n : Nat} (width : Nat) {unit : List Char} (hpos : 0 < width)
    (hwidth : width ≤ 9) (hunit : unit.all (!isAmountChar ·) = true) (hne : unit ≠ [])
    (hper : compactUnit? unit = some (tenPow width : Int)) (hmax : (n : Int) ≤ maxInt128)
    {total : Int} (htotal : 0 ≤ total) (hsum : total + n ≤ maxInt128) :
    sumCompact? total (printDecimal (n / tenPow width) (n % tenPow width) width ++ unit) =
      pure (total + n) := by
  have hsplit : ((n / tenPow width : Nat) : Int) * tenPow width + (n % tenPow width : Nat) = n := by
    exact_mod_cast Nat.div_add_mod' n (tenPow width)
  have hread := reads_printDecimal (Nat.mod_lt n (tenPow_pos width)) hpos hwidth
    (by rw [hsplit]; exact hmax)
  rw [hsplit] at hread
  exact sumCompact?_last isAmountChar_of_mem_printDecimal (printDecimal_ne_nil _ _ _) hunit hne
    hread hper (by omega) hsum

/-- The pairs of a printed magnitude add up to it. -/
theorem sumCompact?_printMagnitude {n : Nat} (hmax : (n : Int) ≤ maxInt128) :
    sumCompact? 0 (printMagnitude n) = pure (n : Int) := by
  have hzero : (0 : Int) + n = n := Int.zero_add _
  unfold printMagnitude
  split
  · rw [← hzero]
    have hread : Reads (Nat.toDigits 10 n) 1 (n * 1) := reads_toDigits (by decide) (by omega)
    rw [Int.mul_one] at hread
    exact sumCompact?_last (fun c hc => isAmountChar_of_isDigit (isDigit_of_mem_toDigits n c hc))
      Nat.toDigits_ne_nil (by decide) (by simp) hread rfl (by omega) (by omega)
  split
  · rw [← hzero]
    exact sumCompact?_printDecimal 3 (by decide) (by decide) (by decide) (by simp) rfl
      hmax (by decide) (by omega)
  split
  · rw [← hzero]
    exact sumCompact?_printDecimal 6 (by decide) (by decide) (by decide) (by simp) rfl
      hmax (by decide) (by omega)
  -- hours and minutes are whole, and the seconds are what is left of the last minute
  dsimp only
  generalize hleft : n % 60000000000 = left
  have hseconds : n / 1000000000 % 60 = left / 1000000000 := by omega
  have hfraction : n % 1000000000 = left % 1000000000 := by omega
  have htotal : (0 : Int) + (n / 1000000000 / 3600 : Nat) * hour +
      (n / 1000000000 / 60 % 60 : Nat) * minute + left = n := by
    unfold hour minute second milli micro
    omega
  have hhour : 0 < hour := by decide
  have hminute : 0 < minute := by decide
  have hhours : 0 ≤ (n / 1000000000 / 3600 : Nat) * hour := Int.mul_nonneg (by omega) (by omega)
  have hminutes : 0 ≤ (n / 1000000000 / 60 % 60 : Nat) * minute := Int.mul_nonneg (by omega) (by omega)
  have hstart : StartsPair (printDecimal (left / 1000000000) (left % 1000000000) 9 ++ ['s']) :=
    startsPair_append (printDecimal_ne_nil _ _ _) isAmountChar_of_mem_printDecimal
  rw [hseconds, hfraction, List.append_assoc, List.append_assoc,
    sumCompact?_optional hour (by omega) rfl (startsPair_optional hstart) rfl hhour (by decide)
      (by omega),
    sumCompact?_optional minute (by omega) rfl hstart rfl hminute (by omega) (by omega), ← htotal]
  exact sumCompact?_printDecimal 9 (by decide) (by decide) (by decide) (by simp) rfl
    (by omega) (by omega) (by omega)

end Magnitudes

/-! ### No interval -/

section Interval

theorem mem_splitSign {c : Char} {token : List Char} (hc : c ∈ token) (hplus : c ≠ '+')
    (hminus : c ≠ '-') : c ∈ (splitSign token).2 := by
  unfold splitSign
  split
  · exact (List.mem_cons.mp hc).resolve_left hminus
  · exact (List.mem_cons.mp hc).resolve_left hplus
  · exact hc

/-- A letter is part of no amount. -/
theorem readAmount?_eq_none {c : Char} {token : List Char} (hc : c ∈ token) (hplus : c ≠ '+')
    (hminus : c ≠ '-') (hletter : isAmountChar c = false) : readAmount? token = none := by
  obtain ⟨hdigit, hpoint⟩ : c.isDigit = false ∧ c ≠ '.' := by
    simpa [isAmountChar] using hletter
  have hbody := mem_splitSign hc hplus hminus
  unfold readAmount?
  dsimp only
  generalize (splitSign token).2 = body at hbody
  have hall : (!(body.takeWhile (· ≠ '.')).all Char.isDigit ||
      !((body.dropWhile (· ≠ '.')).drop 1).all Char.isDigit) = true := by
    rw [← List.takeWhile_append_dropWhile (p := (decide <| · ≠ '.')) (l := body),
      List.mem_append] at hbody
    rw [Bool.or_eq_true, Bool.not_eq_true', Bool.not_eq_true', List.all_eq_false, List.all_eq_false]
    rcases hbody with hwhole | hrest
    · exact .inl ⟨c, hwhole, by simp [hdigit]⟩
    · -- what is left begins with the point
      refine .inr ⟨c, ?_, by simp [hdigit]⟩
      have hhead := List.head_dropWhile_not (decide <| · ≠ '.') (List.ne_nil_of_mem hrest)
      generalize body.dropWhile (decide <| · ≠ '.') = rest at hrest hhead
      cases rest with
      | nil => cases hrest
      | cons d ds =>
        refine (List.mem_cons.mp hrest).resolve_left fun heq => hpoint ?_
        exact heq.trans (by_contra fun hd => of_decide_eq_false hhead hd)
  rw [if_pos hall, ite_self]

theorem pieces_of_forall {sep : Char → Bool} {cs : List Char} (h : ∀ c ∈ cs, sep c = false) :
    Text.pieces sep cs = [cs] := by
  induction cs with
  | nil => rfl
  | cons c rest ih =>
    rw [Text.pieces, if_neg (by simp [h c List.mem_cons_self]),
      ih fun d hd => h d (List.mem_cons_of_mem c hd)]

/-- One word with a letter and without a colon is no interval. -/
theorem readInterval?_eq_none {c : Char} {cs : List Char} (hc : c ∈ cs) (hplus : c ≠ '+')
    (hminus : c ≠ '-') (hletter : isAmountChar c = false)
    (hblank : ∀ d ∈ cs, Text.isBlank d = false) (hcolon : ':' ∉ cs) :
    readInterval? cs = failure := by
  have hwords : Text.words cs = [cs] := by
    rw [Text.words, pieces_of_forall hblank, List.filter_singleton, cond_eq_ite, if_pos]
    simp [List.ne_nil_of_mem hc]
  rw [readInterval?, hwords]
  unfold sumInterval?
  rw [if_neg (by simp), if_neg (by simpa using hcolon),
    readAmount?_eq_none hc hplus hminus hletter]

end Interval

/-! ### Printed spans -/

/-- The characters that magnitudes are printed with. -/
def isPrinted (c : Char) : Bool := isAmountChar c || ['n', 'µ', 'm', 's', 'h'].contains c

theorem isBlank_of_isPrinted {c : Char} (h : isPrinted c = true) : Text.isBlank c = false := by
  unfold isPrinted isAmountChar at h
  rw [Bool.or_assoc, Bool.or_eq_true] at h
  rcases h with hdigit | hother
  · refine isBlank_of_isNumeral ?_
    rw [isNumeral, hdigit, Bool.true_or]
  · simp at hother
    rcases hother with rfl | rfl | rfl | rfl | rfl | rfl <;> decide

theorem printDecimal_printed (whole fraction width : Nat) :
    (printDecimal whole fraction width).all isPrinted = true := by
  rw [List.all_eq_true]
  intro c hc
  rw [isPrinted, isAmountChar_of_mem_printDecimal c hc, Bool.true_or]

theorem toDigits_printed (n : Nat) : (Nat.toDigits 10 n).all isPrinted = true := by
  rw [List.all_eq_true]
  intro c hc
  rw [isPrinted, isAmountChar_of_isDigit (isDigit_of_mem_toDigits n c hc), Bool.true_or]

theorem optional_printed {shown : Prop} [Decidable shown] {cs : List Char}
    (h : cs.all isPrinted = true) : (if shown then cs else []).all isPrinted = true := by
  split
  · exact h
  · rfl

theorem printMagnitude_printed (n : Nat) : (printMagnitude n).all isPrinted = true := by
  have hunit (n : Nat) (unit : Char) (h : isPrinted unit = true) :
      (Nat.toDigits 10 n ++ [unit]).all isPrinted = true := by
    rw [List.all_append, toDigits_printed, List.all_cons, h]
    rfl
  unfold printMagnitude
  repeat' split
  · rw [List.all_append, toDigits_printed]
    rfl
  · rw [List.all_append, printDecimal_printed]
    rfl
  · rw [List.all_append, printDecimal_printed]
    rfl
  · dsimp only
    rw [List.all_append, List.all_append, List.all_append, printDecimal_printed,
      optional_printed (hunit _ 'h' rfl), optional_printed (hunit _ 'm' rfl)]
    rfl

theorem s_mem_printMagnitude (n : Nat) : 's' ∈ printMagnitude n := by
  unfold printMagnitude
  repeat' split
  all_goals exact List.mem_append_right _ (by simp)

section NonZero

variable {d : Duration} (hne : d.nanos ≠ 0)

include hne

theorem printChars_of_ne :
    d.printChars = (if d.nanos < 0 then ['-'] else []) ++ printMagnitude d.nanos.natAbs :=
  if_neg hne

theorem splitSign_printChars :
    splitSign d.printChars = (decide (d.nanos < 0), printMagnitude d.nanos.natAbs) := by
  rw [printChars_of_ne hne]
  by_cases hneg : d.nanos < 0
  · rw [if_pos hneg, decide_eq_true hneg]
    rfl
  · rw [if_neg hneg, decide_eq_false hneg, List.nil_append]
    have hall := List.all_eq_true.mp (printMagnitude_printed d.nanos.natAbs)
    unfold splitSign
    split
    · next heq => exact absurd (hall '-' (heq ▸ List.mem_cons_self)) (by decide)
    · next heq => exact absurd (hall '+' (heq ▸ List.mem_cons_self)) (by decide)
    · rfl

theorem readCompact?_printChars : readCompact? d.printChars = pure d.nanos := by
  have hmax := d.le_max
  have hmin := d.neg_max_le
  have hword : (d.nanos.natAbs : Int) ≤ maxInt128 := by
    unfold maxDuration maxInt64 at hmax hmin
    unfold maxInt128
    omega
  unfold readCompact?
  rw [splitSign_printChars hne]
  dsimp only
  rw [if_neg (by simp [List.ne_nil_of_mem (s_mem_printMagnitude _)]),
    sumCompact?_printMagnitude hword, pure_bind]
  by_cases hneg : d.nanos < 0
  · have hne : (d.nanos.natAbs : Int) ≠ minInt128 := by
      unfold minInt128
      omega
    rw [decide_eq_true hneg, if_pos rfl, negate_of_ne hne]
    exact congrArg pure (by omega)
  · rw [decide_eq_false hneg, if_neg (by simp)]
    exact congrArg pure (by omega)

theorem mem_printChars {c : Char} (h : c ∈ d.printChars) : c = '-' ∨ isPrinted c = true := by
  rw [printChars_of_ne hne] at h
  rcases List.mem_append.mp h with hsign | hmagnitude
  · left
    split at hsign
    · exact List.mem_singleton.mp hsign
    · cases hsign
  · exact .inr (List.all_eq_true.mp (printMagnitude_printed _) c hmagnitude)

theorem s_mem_printChars : 's' ∈ d.printChars := by
  rw [printChars_of_ne hne]
  exact List.mem_append_right _ (s_mem_printMagnitude _)

theorem isBlank_of_mem_printChars {c : Char} (h : c ∈ d.printChars) : Text.isBlank c = false := by
  rcases mem_printChars hne h with rfl | hprinted
  · decide
  · exact isBlank_of_isPrinted hprinted

theorem readInterval?_printChars : readInterval? d.printChars = failure := by
  refine readInterval?_eq_none (s_mem_printChars hne) (by decide) (by decide) (by decide)
    (fun _ => isBlank_of_mem_printChars hne) fun hcolon => ?_
  rcases mem_printChars hne hcolon with hsign | hprinted
  · exact absurd hsign (by decide)
  · exact absurd hprinted (by decide)

/-- The text of zero is taken for no other span. -/
theorem printChars_ne_zero : ¬(d.printChars = ['0'] ∨ d.printChars = ['0', 's']) := by
  rintro (hdigit | hseconds)
  · have hs := s_mem_printChars hne
    rw [hdigit] at hs
    exact absurd hs (by decide)
  · have hread := readCompact?_printChars hne
    have hzero : sumCompact? 0 ['0', 's'] = pure 0 :=
      sumCompact?_printDecimal (n := 0) 9 (by decide) (by decide) (by decide)
        (by simp) rfl (by decide) (by decide) (by decide)
    rw [hseconds] at hread
    have hreadZero : readCompact? ['0', 's'] = pure 0 := by
      simp [readCompact?, splitSign, hzero]
    have hrun : (.ok (some 0) : Except Overflow (Option Int)) = .ok (some d.nanos) :=
      congrArg OptionT.run (hreadZero.symm.trans hread)
    exact hne (Option.some.inj (Except.ok.inj hrun)).symm

end NonZero

/-- A printed span is read back if a 64-bit word holds its nanoseconds, and otherwise not at all. -/
theorem read?_print (d : Duration) :
    read? d.print = .ok (if minInt64 ≤ d.nanos ∧ d.nanos ≤ maxInt64 then some d else none) := by
  by_cases hzero : d.nanos = 0
  · have hd : d = zero := by
      cases d
      cases hzero
      rfl
    subst hd
    decide
  · unfold read? readLiteral? print
    rw [String.toList_ofList, Text.trimChars_of_forall fun _ => isBlank_of_mem_printChars hzero]
    dsimp only
    rw [if_neg (printChars_ne_zero hzero), readInterval?_printChars hzero,
      readCompact?_printChars hzero, ← ofNanos?_nanos d]
    show (if minInt64 ≤ d.nanos ∧ d.nanos ≤ maxInt64 then liftM (ofNanos? d.nanos) else failure :
      Reading Duration).run = _
    split <;> rfl

end TenantSchema.Duration
