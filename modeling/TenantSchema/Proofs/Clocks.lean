import TenantSchema.Proofs.SignedNumbers

/-!
# Clocks

A clock is hours and minutes, with seconds or without, behind a sign or none. More than that is
read: hours, minutes and seconds may have a sign each, and the limits on them are upper limits. A
token without a sign behind its first character is read as the clock that it is, or not at all.
-/

namespace TenantSchema.Duration

open TenantSchema.Number

/-! ### Cutting -/

section Pieces

variable {sep : Char → Bool} {p cs : List Char} {s : Char}

/-- The first piece ends at the first separator. -/
theorem pieces_append (hp : ∀ c ∈ p, sep c = false) (hs : sep s = true) (tail : List Char) :
    Text.pieces sep (p ++ s :: tail) = p :: Text.pieces sep tail := by
  rw [Text.pieces_append hs, pieces_of_forall hp]
  rfl

theorem pieces_cases (sep : Char → Bool) (cs : List Char) :
    Text.pieces sep cs = [cs] ∨ ∃ p s tail, cs = p ++ s :: tail ∧ sep s = true ∧
      Text.pieces sep cs = p :: Text.pieces sep tail := by
  by_cases hnone : ∀ c ∈ cs, sep c = false
  · exact .inl (pieces_of_forall hnone)
  · have hcut := List.takeWhile_append_dropWhile (p := (!sep ·)) (l := cs)
    have hfront : ∀ c ∈ cs.takeWhile (!sep ·), sep c = false := fun c hc => by
      simpa using List.mem_takeWhile_imp hc
    cases htail : cs.dropWhile (!sep ·) with
    | nil =>
      rw [htail, List.append_nil] at hcut
      exact absurd (hcut ▸ hfront) hnone
    | cons s tail =>
      have hs : sep s = true := by
        have hhead := List.head?_dropWhile_not (!sep ·) cs
        rw [htail] at hhead
        simpa using hhead
      rw [htail] at hcut
      refine .inr ⟨_, s, tail, hcut.symm, hs, ?_⟩
      rw [← pieces_append hfront hs tail, hcut]

/-- Joined with colons again, pieces give the text that was cut. -/
theorem eq_append_of_pieces {rest : List (List Char)} (hrest : rest ≠ [])
    (h : Text.pieces (· = ':') cs = p :: rest) :
    ∃ tail, cs = p ++ ':' :: tail ∧ Text.pieces (· = ':') tail = rest := by
  rcases pieces_cases (· = ':') cs with hone | ⟨p', s, tail, hcs, hs, hpieces⟩
  · rw [hone] at h
    exact absurd (List.cons.inj h).2.symm hrest
  · rw [hpieces] at h
    obtain ⟨rfl, htail⟩ := List.cons.inj h
    have hcolon : s = ':' := by simpa using hs
    exact ⟨tail, hcolon ▸ hcs, htail⟩

theorem eq_of_pieces (h : Text.pieces (· = ':') cs = [p]) : cs = p := by
  rcases pieces_cases (· = ':') cs with hone | ⟨p', s, tail, hcs, hs, hpieces⟩
  · rw [hone] at h
    exact (List.cons.inj h).1
  · rw [hpieces] at h
    exact absurd (List.cons.inj h).2 (Text.pieces_ne_nil _ _)

end Pieces

/-! ### Clocks -/

/-- Hours and minutes, and seconds if there are any, behind a sign or none. The first sign of the
text is the sign of the whole. -/
structure Clock where
  sign : Sign
  hours : SignedNumeral
  minutes : SignedNumeral
  seconds : Option SignedDecimal
  hours_sign : sign = .absent → hours.sign = .absent

namespace Clock

variable (c : Clock)

def body : List Char :=
  c.hours.text ++ ':' :: (c.minutes.text ++ c.seconds.elim [] (':' :: ·.text))

def text : List Char := c.sign.text ++ c.body

/-- Nanoseconds of the seconds. -/
def secondsNanos : Int := c.seconds.elim 0 SignedDecimal.value

def total : Int := c.hours.value * hour + c.minutes.value * minute + c.secondsNanos

/-- The total behind the sign. -/
def nanos : Int := c.sign.apply c.total

/-- Minutes and seconds are below their upper limits, and no sum and no product leaves the word. -/
structure AddsUp : Prop where
  minutes_lt : c.minutes.value < 60
  seconds_lt : c.secondsNanos < minute
  seconds_word : ∀ d ∈ c.seconds, (d.magnitude : Int) ≤ maxInt128
  hours_word : InWord (c.hours.value * hour)
  minutes_word : InWord (c.minutes.value * minute)
  both_word : InWord (c.hours.value * hour + c.minutes.value * minute)
  total_word : InWord c.total

/-- The total does not leave the word behind its sign either. -/
structure Fits : Prop extends c.AddsUp where
  nanos_word : InWord c.nanos

/-- Neither hours nor minutes nor seconds have a sign of their own. -/
structure IsPlain : Prop where
  hours : c.hours.sign = .absent
  minutes : c.minutes.sign = .absent
  seconds : ∀ d ∈ c.seconds, d.sign = .absent

/-- A plain clock with minutes and seconds below 60, whose total is a word, tells the total behind
the sign. -/
structure Tells (n : Int) : Prop where
  plain : c.IsPlain
  minutes_lt : c.minutes.value < 60
  seconds_lt : ∀ d ∈ c.seconds, numeralValue d.digits < 60 * d.denominator
  le_max : c.total ≤ maxInt128
  eq : n = c.sign.apply c.total

end Clock

/-! ### Where signs can stand -/

section Places

theorem SignedNumeral.noSigns_text (p : SignedNumeral) : NoSigns p.text ↔ p.sign = .absent := by
  rw [SignedNumeral.text, noSigns_append, noSigns_signText]
  exact and_iff_left (noSigns_of_digits p.isNumeral.digits)

theorem SignedDecimal.noSigns_text (d : SignedDecimal) : NoSigns d.text ↔ d.sign = .absent := by
  rw [SignedDecimal.text, noSigns_append, noSigns_signText]
  exact and_iff_left d.noSigns_body

theorem SignedNumeral.noLeadingSign_append (p : SignedNumeral) (tail : List Char) :
    NoLeadingSign (p.text ++ tail) ↔ p.sign = .absent := by
  obtain ⟨d, ds, hdigits, -, hplus, hminus⟩ := p.isNumeral.exists_cons
  rw [SignedNumeral.text, hdigits]
  cases p.sign <;> simp [NoLeadingSign, Sign.text, hplus, hminus]

theorem NoLeadingSign.noSigns_tail {cs : List Char} (h : NoLeadingSign cs) :
    NoSigns cs.tail ↔ NoSigns cs := by
  cases cs with
  | nil => rfl
  | cons c rest =>
    rw [List.tail_cons, noSigns_cons, and_iff_right]
    exact (noSigns_cons.mp h).1

namespace Clock

variable (c : Clock)

theorem noLeadingSign_body (h : c.sign = .absent) : NoLeadingSign c.body :=
  (c.hours.noLeadingSign_append _).mpr (c.hours_sign h)

theorem noSigns_body : NoSigns c.body ↔ c.IsPlain := by
  have hbody : NoSigns c.body ↔
      c.hours.sign = .absent ∧ c.minutes.sign = .absent ∧ ∀ d ∈ c.seconds, d.sign = .absent := by
    unfold body
    cases c.seconds <;>
      simp [SignedNumeral.noSigns_text, SignedDecimal.noSigns_text]
  rw [hbody]
  exact ⟨fun ⟨hh, hm, hs⟩ => ⟨hh, hm, hs⟩, fun ⟨hh, hm, hs⟩ => ⟨hh, hm, hs⟩⟩

/-- A clock is plain if no sign stands behind its first character. -/
theorem noSigns_tail : NoSigns c.text.tail ↔ c.IsPlain := by
  rw [← noSigns_body]
  unfold text
  cases hsign : c.sign with
  | absent => exact (c.noLeadingSign_body hsign).noSigns_tail
  | plus | minus => rfl

end Clock

end Places

/-! ### Reading clocks -/

/-- With a product in the word, its factor is there. -/
theorem inWord_of_mul {n unit : Int} (hunit : 1 ≤ unit) (h : InWord (n * unit)) : InWord n := by
  obtain ⟨hmin, hmax⟩ := h
  rcases Int.le_total 0 n with hn | hn
  · have hle : n * 1 ≤ n * unit := Int.mul_le_mul_of_nonneg_left hunit hn
    unfold InWord minInt128 at *
    omega
  · have hle : n * unit ≤ n * 1 := Int.mul_le_mul_of_nonpos_left hn hunit
    unfold InWord maxInt128 at *
    omega

namespace Clock

variable (c : Clock) {n : Int}

theorem pieces_body : Text.pieces (· = ':') c.body =
    c.hours.text :: c.minutes.text :: c.seconds.toList.map SignedDecimal.text := by
  have hcolonless {cs : List Char} (h : ':' ∉ cs) : ∀ d ∈ cs, decide (d = ':') = false := by
    rintro d hd
    exact decide_eq_false fun heq => h (heq ▸ hd)
  have hminutes := hcolonless c.minutes.colon_notMem
  unfold body
  rw [pieces_append (hcolonless c.hours.colon_notMem) rfl]
  cases c.seconds with
  | none =>
    rw [Option.elim_none, List.append_nil, pieces_of_forall hminutes]
    rfl
  | some d =>
    rw [Option.elim_some, pieces_append hminutes rfl, pieces_of_forall (hcolonless d.colon_notMem)]
    rfl

theorem clockNanos?_body : clockNanos? c.body = pure n ↔ c.AddsUp ∧ n = c.total := by
  obtain ⟨sign, hours, minutes, seconds, hsign⟩ := c
  unfold clockNanos?
  rw [pieces_body]
  cases seconds with
  | none =>
    show (do clockTotal? (← clockPart? hours.text) (← clockPart? minutes.text) 0 : Reading Int) =
      pure n ↔ _
    rw [hours.clockPart?_text, Reading.within128_bind_eq_pure, minutes.clockPart?_text,
      Reading.within128_bind_eq_pure, Reading.lift_eq_pure, clockTotal?_eq_some_iff]
    constructor
    · rintro ⟨-, -, ⟨hlt, hseconds⟩, hh, hm, hboth, htotal, hn⟩
      exact ⟨⟨hlt, hseconds, nofun, hh, hm, hboth, htotal⟩, hn⟩
    · rintro ⟨⟨hlt, hseconds, -, hh, hm, hboth, htotal⟩, hn⟩
      exact ⟨inWord_of_mul (by decide) hh, inWord_of_mul (by decide) hm, ⟨hlt, hseconds⟩, hh, hm,
        hboth, htotal, hn⟩
  | some d =>
    show (do
      let a ← clockPart? hours.text
      let b ← clockPart? minutes.text
      let amount ← readAmount? d.text
      let s ← amount.scale? second
      clockTotal? a b s : Reading Int) = pure n ↔ _
    rw [hours.clockPart?_text, Reading.within128_bind_eq_pure, minutes.clockPart?_text,
      Reading.within128_bind_eq_pure, ← bind_assoc, d.readSeconds_text]
    by_cases hd : (d.magnitude : Int) ≤ maxInt128
    · rw [if_pos hd, pure_bind, Reading.lift_eq_pure, clockTotal?_eq_some_iff]
      constructor
      · rintro ⟨-, -, ⟨hlt, hseconds⟩, hh, hm, hboth, htotal, hn⟩
        exact ⟨⟨hlt, hseconds, fun _ hs => Option.some.inj hs ▸ hd, hh, hm, hboth, htotal⟩, hn⟩
      · rintro ⟨⟨hlt, hseconds, -, hh, hm, hboth, htotal⟩, hn⟩
        exact ⟨inWord_of_mul (by decide) hh, inWord_of_mul (by decide) hm, ⟨hlt, hseconds⟩, hh, hm,
          hboth, htotal, hn⟩
    · rw [if_neg hd]
      refine iff_of_false (fun h => Reading.failure_ne_pure n h.2.2) ?_
      rintro ⟨hadds, -⟩
      exact hd (hadds.seconds_word d rfl)

/-- Whatever is read behind a sign or none is written as a clock. -/
theorem exists_body {sign : Sign} {body : List Char} (hsign : sign = .absent → NoLeadingSign body)
    (h : clockNanos? body = pure n) : ∃ c : Clock, c.sign = sign ∧ c.body = body := by
  unfold clockNanos? at h
  split at h
  · next hours minutes hpieces =>
    obtain ⟨_, hh, h⟩ := Reading.lift_bind_eq_pure.mp h
    obtain ⟨_, hm, -⟩ := Reading.lift_bind_eq_pure.mp h
    obtain ⟨hours, rfl⟩ := SignedNumeral.exists_text hh
    obtain ⟨minutes, rfl⟩ := SignedNumeral.exists_text hm
    obtain ⟨rest, rfl, hrest⟩ := eq_append_of_pieces (List.cons_ne_nil _ _) hpieces
    obtain rfl := eq_of_pieces hrest
    refine ⟨⟨sign, hours, minutes, none, fun habsent => ?_⟩, rfl, ?_⟩
    · exact (hours.noLeadingSign_append _).mp (hsign habsent)
    · exact congrArg (fun cs => hours.text ++ ':' :: cs) (List.append_nil _)
  · next hours minutes seconds hpieces =>
    obtain ⟨_, hh, h⟩ := Reading.lift_bind_eq_pure.mp h
    obtain ⟨_, hm, h⟩ := Reading.lift_bind_eq_pure.mp h
    obtain ⟨_, hs, -⟩ := Reading.lift_bind_eq_pure.mp h
    obtain ⟨hours, rfl⟩ := SignedNumeral.exists_text hh
    obtain ⟨minutes, rfl⟩ := SignedNumeral.exists_text hm
    obtain ⟨d, rfl⟩ := SignedDecimal.exists_text hs
    obtain ⟨rest, rfl, hrest⟩ := eq_append_of_pieces (List.cons_ne_nil _ _) hpieces
    obtain ⟨last, rfl, hlast⟩ := eq_append_of_pieces (List.cons_ne_nil _ _) hrest
    obtain rfl := eq_of_pieces hlast
    exact ⟨⟨sign, hours, minutes, some d, fun habsent =>
      (hours.noLeadingSign_append _).mp (hsign habsent)⟩, rfl, rfl⟩
  · exact absurd h (Reading.failure_ne_pure n)

/-- Only the least word leaves the word behind a minus. -/
theorem nanos_word_iff (h : InWord c.total) :
    InWord c.nanos ↔ ¬(c.sign = .minus ∧ c.total = minInt128) := by
  unfold nanos
  cases c.sign with
  | absent | plus => exact iff_of_true h nofun
  | minus =>
    simp only [Sign.apply_minus, true_and]
    unfold InWord minInt128 maxInt128 at *
    omega

/-- A clock that adds up is read, or overflows behind its minus. -/
theorem readClock?_of_addsUp (h : c.AddsUp) : readClock? c.text =
    if c.sign = .minus ∧ c.total = minInt128 then overflow else pure c.nanos := by
  unfold readClock? text nanos
  rw [Duration.splitSign_text c.noLeadingSign_body]
  dsimp only
  rw [c.clockNanos?_body.mpr ⟨h, rfl⟩, pure_bind]
  cases c.sign with
  | absent | plus => rfl
  | minus => simp only [decide_true, if_true, true_and, negate, Sign.apply_minus]

theorem readClock?_text : readClock? c.text = pure n ↔ c.Fits ∧ n = c.nanos := by
  by_cases hadds : c.AddsUp
  · have hword := c.nanos_word_iff hadds.total_word
    rw [c.readClock?_of_addsUp hadds]
    split
    · next hleast =>
      exact iff_of_false (Reading.overflow_ne_pure n) fun h => hword.mp h.1.nanos_word hleast
    · next hleast =>
      rw [Reading.pure_eq_iff, and_iff_right ⟨hadds, hword.mpr hleast⟩]
  · have hfails : clockNanos? c.body = failure := by
      refine (quiet_clockNanos? c.body).resolve_right ?_
      rintro ⟨n, hn, -⟩
      exact hadds (c.clockNanos?_body.mp hn).1
    unfold readClock? text
    rw [Duration.splitSign_text c.noLeadingSign_body]
    dsimp only
    rw [hfails]
    exact iff_of_false (Reading.failure_ne_pure n) fun h => hadds h.1.toAddsUp

theorem exists_text {token : List Char} (h : readClock? token = pure n) :
    ∃ c : Clock, c.text = token := by
  obtain ⟨sign, body, rfl, hsign⟩ := exists_sign token
  unfold readClock? at h
  rw [Duration.splitSign_text hsign] at h
  dsimp only at h
  obtain ⟨total, htotal, -⟩ := Reading.bind_eq_pure.mp h
  obtain ⟨c, rfl, rfl⟩ := exists_body hsign htotal
  exact ⟨c, rfl⟩

/-! ### Plain clocks -/

theorem nonneg_of_isPlain (h : c.IsPlain) :
    0 ≤ c.hours.value ∧ 0 ≤ c.minutes.value ∧ 0 ≤ c.secondsNanos := by
  unfold SignedNumeral.value
  rw [h.hours, h.minutes]
  refine ⟨Int.natCast_nonneg _, Int.natCast_nonneg _, ?_⟩
  unfold secondsNanos
  cases hseconds : c.seconds with
  | none => exact Int.le_refl 0
  | some d =>
    rw [Option.elim_some, SignedDecimal.value, h.seconds d hseconds]
    exact Int.natCast_nonneg _

end Clock

/-- Nanoseconds stay below a minute as long as the seconds are below 60. -/
theorem SignedDecimal.magnitude_lt_minute (d : SignedDecimal) :
    (d.magnitude : Int) < minute ↔ numeralValue d.digits < 60 * d.denominator := by
  have hminute : minute = ((60 * 1000000000 : Nat) : Int) := rfl
  have hpos : 0 < d.denominator := tenPow_pos _
  rw [hminute, Int.ofNat_lt, magnitude, Nat.div_lt_iff_lt_mul hpos, Nat.mul_right_comm]
  exact Nat.mul_lt_mul_right (by decide)

namespace Clock

variable (c : Clock) {n : Int}

theorem seconds_lt_iff (h : c.IsPlain) : c.secondsNanos < minute ↔
    ∀ d ∈ c.seconds, numeralValue d.digits < 60 * d.denominator := by
  unfold secondsNanos
  cases hseconds : c.seconds with
  | none => exact iff_of_true (by decide) nofun
  | some d =>
    rw [Option.elim_some, SignedDecimal.value, h.seconds d hseconds, Sign.apply_absent,
      d.magnitude_lt_minute]
    simp

theorem total_nonneg (h : c.IsPlain) : 0 ≤ c.total := by
  obtain ⟨hhours, hminutes, hseconds⟩ := c.nonneg_of_isPlain h
  exact Int.add_nonneg (Int.add_nonneg (Int.mul_nonneg hhours (by decide))
    (Int.mul_nonneg hminutes (by decide))) hseconds

/-- No negative is missing among the totals of plain clocks. -/
theorem AddsUp.fits {c : Clock} (h : c.AddsUp) (hplain : c.IsPlain) : c.Fits := by
  have hnonneg := c.total_nonneg hplain
  refine ⟨h, (c.nanos_word_iff h.total_word).mpr fun hleast => ?_⟩
  rw [hleast.2] at hnonneg
  exact absurd hnonneg (by decide)

/-- What a plain clock tells is what is read. -/
theorem tells_iff : c.Tells n ↔ c.IsPlain ∧ c.Fits ∧ n = c.nanos := by
  constructor
  · rintro ⟨hplain, hminutes, hseconds, hmax, rfl⟩
    obtain ⟨hnonnegHours, hnonnegMinutes, hnonnegSeconds⟩ := c.nonneg_of_isPlain hplain
    refine ⟨hplain, AddsUp.fits ?_ hplain, rfl⟩
    have hhour : hour = 3600000000000 := rfl
    have hminute : minute = 60000000000 := rfl
    have hword (k : Int) (hlow : 0 ≤ k) (hhigh : k ≤ c.total) : InWord k := by
      unfold InWord minInt128
      omega
    have hmagnitude (d : SignedDecimal) (hd : d ∈ c.seconds) : (d.magnitude : Int) ≤ maxInt128 := by
      have hlt := d.magnitude_lt_minute.mpr (hseconds d hd)
      have hlimit : minute ≤ maxInt128 := by decide
      omega
    refine ⟨hminutes, (c.seconds_lt_iff hplain).mpr hseconds, hmagnitude, ?_, ?_, ?_, ?_⟩
    all_goals
      refine hword _ ?_ ?_ <;>
      · simp only [total, hhour, hminute]
        omega
  · rintro ⟨hplain, hfits, rfl⟩
    exact ⟨hplain, hfits.minutes_lt, (c.seconds_lt_iff hplain).mp hfits.seconds_lt,
      hfits.total_word.2, rfl⟩

end Clock

/-- A token is read as a clock whose parts may have signs of their own. So it tells what it should
exactly if no sign stands behind its first character, or nothing is read at all. -/
theorem clock_read_iff (token : List Char) :
    (∀ n, readClock? token = pure n ↔ ∃ c : Clock, c.text = token ∧ c.Fits ∧ n = c.nanos) ∧
      ((∀ n, readClock? token = pure n ↔ ∃ c : Clock, c.text = token ∧ c.Tells n) ↔
        NoSigns token.tail ∨ ∀ n, readClock? token ≠ pure n) := by
  have hread (n : Int) : readClock? token = pure n ↔
      ∃ c : Clock, c.text = token ∧ c.Fits ∧ n = c.nanos := by
    constructor
    · intro h
      obtain ⟨c, rfl⟩ := Clock.exists_text h
      exact ⟨c, rfl, c.readClock?_text.mp h⟩
    · rintro ⟨c, rfl, h⟩
      exact c.readClock?_text.mpr h
  refine ⟨hread, fun h => ?_, ?_⟩
  · by_cases hnone : ∀ n, readClock? token ≠ pure n
    · exact .inr hnone
    · obtain ⟨n, hn⟩ := not_forall_not.mp hnone
      obtain ⟨c, rfl, htells⟩ := (h n).mp hn
      exact .inl (c.noSigns_tail.mpr htells.plain)
  · rintro (hsigns | hnone) n
    · rw [hread]
      refine exists_congr fun c => and_congr_right ?_
      rintro rfl
      rw [c.tells_iff, and_iff_right (c.noSigns_tail.mp hsigns)]
    · refine iff_of_false (hnone n) ?_
      rintro ⟨c, rfl, htells⟩
      exact hnone n (c.readClock?_text.mpr (c.tells_iff.mp htells).2)

/-- One and a half hours and half a second ago. -/
theorem signed_clock_tells :
    readClock? "-01:30:00.5".toList = pure (-5400500000000) ∧
      ∃ c : Clock, c.text = "-01:30:00.5".toList ∧ c.Tells (-5400500000000) := by
  have hread : readClock? "-01:30:00.5".toList = pure (-5400500000000) := by decide +kernel
  have hsigns : NoSigns "-01:30:00.5".toList.tail := by simp
  exact ⟨hread, ((clock_read_iff _).2.mpr (.inl hsigns) _).mp hread⟩

/-- Minus thirty minutes are taken off the hours. -/
theorem signed_minutes_are_read :
    ¬(∀ token n, readClock? token = pure n ↔ ∃ c : Clock, c.text = token ∧ c.Tells n) ∧
      (read? "12:-30").map (·.map (·.nanos)) = .ok (some (12 * hour - 30 * minute)) := by
  have hread : readClock? "12:-30".toList = pure (12 * hour - 30 * minute) := by decide +kernel
  refine ⟨fun h => ?_, by decide +kernel⟩
  obtain ⟨c, htext, htells⟩ := (h _ _).mp hread
  have hsigns := c.noSigns_tail.mpr htells.plain
  rw [htext] at hsigns
  exact (hsigns '-' (by decide +kernel)).2 rfl

end TenantSchema.Duration
