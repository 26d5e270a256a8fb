import TenantSchema.Proofs.CompactDurations

/-!
# Negations beyond the word

Of all that is done to read a duration, only negating the least word leaves the 128 bits. Compact
literals and amounts never come to that. A clock does when its parts, signs of their own included,
add up to the least word behind a minus, and an interval does when its parts add up to it before
`ago`. Either takes two minus signs at least.
-/

namespace TenantSchema.Duration

open TenantSchema.Number

/-! ### Readings and their outcomes -/

namespace Reading

variable {α β : Type}

/-- Somewhere in the reading a negation leaves the 128 bits. -/
def Overflows (m : Reading α) : Prop := m = overflow

/-- The reading does not overflow, and whatever it gives has the property. -/
def Quiet (P : α → Prop) (m : Reading α) : Prop := m = failure ∨ ∃ a, m = pure a ∧ P a

variable {P : α → Prop} {Q : β → Prop} {m : Reading α} {k : α → Reading β}

theorem overflows_iff : m.Overflows ↔ m.run = .error {} := ⟨congrArg OptionT.run, OptionT.ext⟩

instance [DecidableEq α] : DecidableEq (Reading α) :=
  inferInstanceAs (DecidableEq (Except Overflow (Option α)))

instance [DecidableEq α] (m : Reading α) : Decidable m.Overflows :=
  inferInstanceAs (Decidable (m = overflow))

/-- There are three outcomes. -/
theorem outcome (m : Reading α) : m = failure ∨ (∃ a, m = pure a) ∨ m.Overflows := by
  rcases hm : m.run with ⟨⟩ | _ | a
  · exact .inr (.inr (OptionT.ext hm))
  · exact .inl (OptionT.ext hm)
  · exact .inr (.inl ⟨a, OptionT.ext hm⟩)

theorem pure_inj {a b : α} (h : (pure a : Reading α) = pure b) : a = b := by
  have hrun : (.ok (some a) : Except Overflow (Option α)) = .ok (some b) := congrArg OptionT.run h
  cases hrun
  rfl

theorem pure_eq_iff {a b : α} : (pure a : Reading α) = pure b ↔ b = a :=
  ⟨fun h => (pure_inj h).symm, fun h => congrArg pure h.symm⟩

theorem failure_ne_pure (a : α) : (failure : Reading α) ≠ pure a := by
  intro h
  have hrun : (.ok none : Except Overflow (Option α)) = .ok (some a) := congrArg OptionT.run h
  cases hrun

theorem overflow_ne_pure (a : α) : (overflow : Reading α) ≠ pure a := by
  intro h
  have hrun : (.error {} : Except Overflow (Option α)) = .ok (some a) := congrArg OptionT.run h
  cases hrun

theorem overflow_ne_failure : (overflow : Reading α) ≠ failure := by
  intro h
  have hrun : (.error {} : Except Overflow (Option α)) = .ok none := congrArg OptionT.run h
  cases hrun

theorem not_overflows_failure : ¬ (failure : Reading α).Overflows := overflow_ne_failure.symm

theorem not_overflows_pure (a : α) : ¬ (pure a : Reading α).Overflows := (overflow_ne_pure a).symm

theorem failure_bind (k : α → Reading β) : failure >>= k = failure := rfl

theorem failure_orElse (m : Reading α) : (failure <|> m) = m := rfl

namespace Quiet

theorem failure : Quiet P (failure : Reading α) := .inl rfl

theorem pure {a : α} (h : P a) : Quiet P (pure a) := .inr ⟨a, rfl, h⟩

theorem lift {found : Option α} (h : ∀ a, found = some a → P a) : Quiet P (liftM found) := by
  cases found with
  | none => exact failure
  | some a => exact pure (h a rfl)

theorem mono {P' : α → Prop} (hm : Quiet P m) (h : ∀ a, P a → P' a) : Quiet P' m := by
  rcases hm with hm | ⟨a, hm, ha⟩
  · exact .inl hm
  · exact .inr ⟨a, hm, h a ha⟩

theorem bind (hm : Quiet P m) (hk : ∀ a, P a → Quiet Q (k a)) : Quiet Q (m >>= k) := by
  rcases hm with rfl | ⟨a, rfl, ha⟩
  · exact failure
  · rw [pure_bind]
    exact hk a ha

theorem of_eq_pure {a : α} (hm : Quiet P m) (h : m = Pure.pure a) : P a := by
  rcases hm with hm | ⟨b, hm, hb⟩
  · exact absurd (hm.symm.trans h) (failure_ne_pure a)
  · exact pure_inj (hm.symm.trans h) ▸ hb

theorem not_overflows (hm : Quiet P m) : ¬ Overflows m := by
  rcases hm with rfl | ⟨a, rfl, -⟩
  · exact not_overflows_failure
  · exact not_overflows_pure a

end Quiet

theorem bind_eq_pure {b : β} :
    m >>= k = pure b ↔ ∃ a, m = pure a ∧ k a = pure b := by
  constructor
  · intro h
    rcases m.outcome with rfl | ⟨a, rfl⟩ | rfl
    · exact absurd h (failure_ne_pure b)
    · exact ⟨a, rfl, by rwa [pure_bind] at h⟩
    · exact absurd h (overflow_ne_pure b)
  · rintro ⟨a, rfl, h⟩
    rwa [pure_bind]

/-- A reading overflows in its first part, or in what comes after it. -/
theorem bind_overflows :
    (m >>= k).Overflows ↔ m.Overflows ∨ ∃ a, m = pure a ∧ (k a).Overflows := by
  rcases m.outcome with rfl | ⟨a, rfl⟩ | rfl
  · refine iff_of_false not_overflows_failure ?_
    rintro (h | ⟨a, h, -⟩)
    · exact not_overflows_failure h
    · exact failure_ne_pure a h
  · rw [pure_bind]
    constructor
    · exact fun h => .inr ⟨a, rfl, h⟩
    · rintro (h | ⟨b, hb, h⟩)
      · exact absurd h (not_overflows_pure a)
      · exact pure_inj hb ▸ h
  · exact iff_of_true rfl (.inl rfl)

theorem Quiet.bind_overflows (hm : Quiet P m) :
    (m >>= k).Overflows ↔ ∃ a, m = Pure.pure a ∧ (k a).Overflows := by
  rw [Reading.bind_overflows, or_iff_right hm.not_overflows]

/-- A quiet end adds no overflow. -/
theorem bind_overflows_of_quiet (hk : ∀ a, Quiet Q (k a)) :
    (m >>= k).Overflows ↔ m.Overflows := by
  rw [bind_overflows]
  refine or_iff_left ?_
  rintro ⟨a, -, h⟩
  exact (hk a).not_overflows h

theorem orElse_overflows {m' : Reading α} (hm' : Quiet P m') :
    (m <|> m').Overflows ↔ m.Overflows := by
  rcases m.outcome with rfl | ⟨a, rfl⟩ | rfl
  · rw [failure_orElse]
    exact iff_of_false hm'.not_overflows not_overflows_failure
  · rfl
  · rfl

/-- The order is of no account if one of two readings always fails. -/
theorem orElse_comm {m m' : Reading α} (h : m = failure ∨ m' = failure) :
    (m <|> m') = (m' <|> m) := by
  have hcomm (m : Reading α) : (failure <|> m) = (m <|> failure) := by
    rcases m.outcome with rfl | ⟨a, rfl⟩ | rfl <;> rfl
  rcases h with rfl | rfl
  · exact hcomm m'
  · exact (hcomm m).symm

theorem lift_eq_pure {found : Option α} {a : α} :
    (liftM found : Reading α) = Pure.pure a ↔ found = some a := by
  cases found with
  | none => exact iff_of_false (failure_ne_pure a) (nomatch ·)
  | some b =>
    rw [lift_some]
    exact ⟨fun h => congrArg some (pure_inj h), fun h => Option.some.inj h ▸ rfl⟩

theorem lift_bind_eq_pure {found : Option α} {k : α → Reading β} {b : β} :
    (liftM found >>= k) = pure b ↔ ∃ a, found = some a ∧ k a = pure b := by
  rw [bind_eq_pure]
  simp only [lift_eq_pure]

end Reading

open Reading (Quiet)

/-- The minus signs of a text. -/
def minuses (cs : List Char) : Nat := cs.count '-'

/-! ### Amounts -/

theorem within128_eq_some {n k : Int} (h : within128 n = some k) :
    k = n ∧ minInt128 ≤ n ∧ n ≤ maxInt128 := by
  unfold within128 at h
  split at h
  · next hn => exact ⟨(Option.some.inj h).symm, hn⟩
  · cases h

/-- A word of 128 bits holds the number. -/
def InWord (n : Int) : Prop := minInt128 ≤ n ∧ n ≤ maxInt128

instance : DecidablePred InWord := fun _ => inferInstanceAs (Decidable (_ ∧ _))

theorem within128_eq_some_iff {n k : Int} : within128 n = some k ↔ InWord n ∧ k = n := by
  constructor
  · intro h
    obtain ⟨rfl, hword⟩ := within128_eq_some h
    exact ⟨hword, rfl⟩
  · rintro ⟨hword, rfl⟩
    exact if_pos hword

theorem within128_bind_eq_some {α : Type} {n : Int} {k : Int → Option α} {a : α} :
    within128 n >>= k = some a ↔ InWord n ∧ k n = some a := by
  constructor
  · intro h
    obtain ⟨m, hm, hk⟩ := Option.bind_eq_some_iff.mp h
    obtain ⟨hword, rfl⟩ := within128_eq_some_iff.mp hm
    exact ⟨hword, hk⟩
  · rintro ⟨hword, hk⟩
    exact Option.bind_eq_some_iff.mpr ⟨n, within128_eq_some_iff.mpr ⟨hword, rfl⟩, hk⟩

/-- A sum or a product that leaves the word fails, and otherwise it is what the reading goes on
with. -/
theorem Reading.within128_bind_eq {α : Type} {n : Int} {k : Int → Reading α} {m : Reading α}
    (hm : m ≠ failure) : (liftM (within128 n) >>= k) = m ↔ InWord n ∧ k n = m := by
  by_cases hword : InWord n
  · rw [within128_eq_some_iff.mpr ⟨hword, rfl⟩, lift_some, pure_bind, and_iff_right hword]
  · rw [show within128 n = none from if_neg hword, lift_none, failure_bind]
    exact iff_of_false hm.symm fun h => hword h.1

theorem Reading.within128_bind_eq_pure {α : Type} {n : Int} {k : Int → Reading α} {a : α} :
    (liftM (within128 n) >>= k) = pure a ↔ InWord n ∧ k n = pure a :=
  within128_bind_eq (failure_ne_pure a).symm

theorem quiet_within128 (n : Int) :
    Quiet (fun k => k = n ∧ minInt128 ≤ n ∧ n ≤ maxInt128) (liftM (within128 n)) :=
  .lift fun _ => within128_eq_some

theorem minuses_splitSign (token : List Char) :
    minuses token = (if (splitSign token).1 then 1 else 0) + minuses (splitSign token).2 := by
  unfold splitSign minuses
  split
  · rw [List.count_cons_self, if_pos rfl, Nat.add_comm]
  · rw [List.count_cons_of_ne (by decide)]
    simp
  · simp

theorem readAmount?_eq_some {token : List Char} {a : Amount} (h : readAmount? token = some a) :
    a.negative = (splitSign token).1 ∧ 0 ≤ a.whole ∧ 0 ≤ a.fraction := by
  unfold readAmount? at h
  dsimp only at h
  split at h
  · cases h
  · split at h
    · cases h
    · obtain ⟨w, hw, rfl⟩ := Option.map_eq_some_iff.mp h
      exact ⟨rfl, (within128_eq_some hw).1 ▸ Int.natCast_nonneg _, Int.natCast_nonneg _⟩

/-- At most the sign of an amount makes it negative, and then no less than minus the greatest
word. -/
theorem quiet_scale? {token : List Char} {a : Amount} (h : readAmount? token = some a) {unit : Int}
    (hunit : 0 ≤ unit) :
    Quiet (fun n => -maxInt128 ≤ n ∧ n ≤ maxInt128 ∧ (minuses token = 0 → 0 ≤ n))
      (a.scale? unit) := by
  obtain ⟨hnegative, hwhole, hfraction⟩ := readAmount?_eq_some h
  refine (quiet_within128 _).bind fun whole hw => ?_
  refine (quiet_within128 _).bind fun fraction hf => ?_
  refine (quiet_within128 _).bind fun nanos hn => ?_
  have hwholeNanos : 0 ≤ whole := hw.1 ▸ Int.mul_nonneg hwhole hunit
  have hfractionNanos : 0 ≤ fraction := hf.1 ▸ Int.mul_nonneg hfraction hunit
  have hpow : (0 : Int) ≤ tenPow a.fractionDigits := Int.natCast_nonneg _
  have hdiv : 0 ≤ fraction / tenPow a.fractionDigits := Int.ediv_nonneg hfractionNanos hpow
  have hnonneg : 0 ≤ nanos := by omega
  have hmin : nanos ≠ minInt128 := by
    unfold minInt128
    omega
  cases hsign : a.negative with
  | false =>
    rw [if_neg Bool.false_ne_true]
    exact .pure ⟨by omega, by omega, fun _ => hnonneg⟩
  | true =>
    rw [if_pos rfl, negate_of_ne hmin]
    refine .pure ⟨by omega, by omega, fun hnone => ?_⟩
    have hsigns := minuses_splitSign token
    rw [← hnegative, hsign, if_pos rfl] at hsigns
    omega

/-! ### Clocks -/

theorem readUp_ge {hi acc n : Int} {cs : List Char} (hacc : 0 ≤ acc)
    (h : readUp hi acc cs = .value n) : 0 ≤ n := by
  induction cs generalizing acc with
  | nil =>
    cases h
    exact hacc
  | cons c rest ih =>
    unfold readUp at h
    cases hd : digit? c with
    | none =>
      rw [hd] at h
      cases h
    | some d =>
      rw [hd] at h
      dsimp only at h
      split at h
      · cases h
      · exact ih (by omega) h

theorem readInteger_of_clockPart? {cs : List Char} {n : Int} (h : clockPart? cs = some n) :
    readInteger minInt128 maxInt128 cs = .value n := by
  unfold clockPart? at h
  cases hread : readInteger minInt128 maxInt128 cs with
  | value k =>
    rw [hread] at h
    cases h
    rfl
  | aboveRange | belowRange | malformed =>
    rw [hread] at h
    cases h

/-- A part of a clock is negative only behind a minus of its own. -/
theorem clockPart?_nonneg {cs : List Char} {n : Int} (h : clockPart? cs = some n)
    (hnone : minuses cs = 0) : 0 ≤ n := by
  have hvalue := readInteger_of_clockPart? h
  unfold readInteger at hvalue
  split at hvalue
  · cases hvalue
  · cases hvalue
  · cases hvalue
  · exact readUp_ge (Int.le_refl 0) hvalue
  · simp [minuses] at hnone
  · exact readUp_ge (Int.le_refl 0) hvalue

/-- The total is refused for its upper limits, and where a sum or a product leaves the word. -/
theorem clockTotal?_eq_some_iff {hours minutes seconds n : Int} :
    clockTotal? hours minutes seconds = some n ↔
      (minutes < 60 ∧ seconds < minute) ∧ InWord (hours * hour) ∧ InWord (minutes * minute) ∧
        InWord (hours * hour + minutes * minute) ∧
          InWord (hours * hour + minutes * minute + seconds) ∧
            n = hours * hour + minutes * minute + seconds := by
  unfold clockTotal?
  split
  · next hlimit => exact iff_of_false nofun fun h => by omega
  · next hlimit =>
    have hlimits : minutes < 60 ∧ seconds < minute := by omega
    rw [within128_bind_eq_some, within128_bind_eq_some, within128_bind_eq_some,
      within128_eq_some_iff, and_iff_right hlimits]

/-- What is known of a signed count of nanoseconds whose text has some minus signs. The least word
takes two of them. -/
structure Bounded (signs : Nat) (n : Int) : Prop where
  le_max : n ≤ maxInt128
  least : minInt128 ≤ n
  neg_max_le : signs ≤ 1 → -maxInt128 ≤ n
  nonneg : signs = 0 → 0 ≤ n

/-- A whole number of minutes is not the least word, so a clock without seconds of its own sign is
above it. -/
theorem bounded_clockTotal? {hours minutes seconds n : Int} {h m s : Nat}
    (htotal : clockTotal? hours minutes seconds = some n) (hhours : h = 0 → 0 ≤ hours)
    (hminutes : m = 0 → 0 ≤ minutes) (hseconds : s = 0 → 0 ≤ seconds)
    (hleast : -maxInt128 ≤ seconds) : Bounded (h + m + s) n := by
  obtain ⟨-, -, -, ⟨hlow, -⟩, hword, hn⟩ := clockTotal?_eq_some_iff.mp htotal
  rw [← hn] at hword
  obtain ⟨hmin, hmax⟩ := hword
  have hhour : hour = 3600000000000 := rfl
  have hminute : minute = 60000000000 := rfl
  rw [hhour, hminute] at hn hlow
  unfold minInt128 maxInt128 at *
  refine ⟨hmax, hmin, fun hsigns => ?_, fun hnone => ?_⟩
  · simp only [maxInt128]
    omega
  · have hzero : h = 0 ∧ m = 0 ∧ s = 0 := by omega
    omega

theorem flatten_pieces {α : Type} (sep : α → Bool) (l : List α) :
    (Text.pieces sep l).flatten = l.filter (!sep ·) := by
  induction l with
  | nil => rfl
  | cons a rest ih =>
    unfold Text.pieces
    cases hsep : sep a with
    | true => simpa [hsep] using ih
    | false =>
      rw [if_neg Bool.false_ne_true, List.filter_cons_of_pos (by simp [hsep]), ← ih]
      cases Text.pieces sep rest <;> rfl

theorem minuses_pieces {p : Char → Bool} (hp : p '-' = false) (cs : List Char) :
    minuses (Text.pieces p cs).flatten = minuses cs := by
  unfold minuses
  rw [flatten_pieces, List.count_filter (by simp [hp])]

/-- The parts of a clock add up within the word. -/
theorem quiet_clockNanos? (body : List Char) :
    Quiet (Bounded (minuses body)) (clockNanos? body) := by
  have hsigns := minuses_pieces (p := (decide <| · = ':')) rfl body
  unfold clockNanos?
  split
  · next h m hpieces =>
    rw [hpieces] at hsigns
    refine (Quiet.lift fun hours hh => clockPart?_nonneg hh).bind fun hours hhours => ?_
    refine (Quiet.lift fun minutes hm => clockPart?_nonneg hm).bind fun minutes hminutes => ?_
    refine .lift fun n hn => ?_
    have hbounded := bounded_clockTotal? (s := 0) hn hhours hminutes (fun _ => Int.le_refl 0)
      (by decide)
    have hsum : minuses body = minuses h + minuses m + 0 := by
      rw [← hsigns]
      simp [minuses]
    rw [hsum]
    exact hbounded
  · next h m s hpieces =>
    rw [hpieces] at hsigns
    refine (Quiet.lift fun hours hh => clockPart?_nonneg hh).bind fun hours hhours => ?_
    refine (Quiet.lift fun minutes hm => clockPart?_nonneg hm).bind fun minutes hminutes => ?_
    refine (Quiet.lift fun amount ha => ha).bind fun amount hamount => ?_
    refine (quiet_scale? hamount (by decide)).bind fun seconds hseconds => ?_
    refine .lift fun n hn => ?_
    have hbounded := bounded_clockTotal? hn hhours hminutes hseconds.2.2 hseconds.1
    have hsum : minuses body = minuses h + minuses m + minuses s := by
      rw [← hsigns]
      simp [minuses, Nat.add_assoc]
    rw [hsum]
    exact hbounded
  · exact .failure

/-- The parts of a clock behind a minus add up to the least word. -/
def ClockOverflows (token : List Char) : Prop :=
  (splitSign token).1 = true ∧ clockNanos? (splitSign token).2 = pure minInt128

theorem readClock?_of_overflows {token : List Char} (h : ClockOverflows token) :
    (readClock? token).Overflows := by
  unfold readClock?
  dsimp only
  rw [h.2, pure_bind, if_pos h.1]
  rfl

theorem minuses_of_clockOverflows {token : List Char} (h : ClockOverflows token) :
    3 ≤ minuses token := by
  have hbounded := (quiet_clockNanos? (splitSign token).2).of_eq_pure h.2
  have hsigns := minuses_splitSign token
  rw [if_pos h.1] at hsigns
  by_contra hfew
  have hleast := hbounded.neg_max_le (by omega)
  exact absurd hleast (by decide)

/-- No other clock does. -/
theorem quiet_readClock? {token : List Char} (h : ¬ ClockOverflows token) :
    Quiet (Bounded (minuses token)) (readClock? token) := by
  have hsigns := minuses_splitSign token
  have hnanos := quiet_clockNanos? (splitSign token).2
  unfold readClock?
  dsimp only
  cases hnegative : (splitSign token).1 with
  | false =>
    rw [hnegative, if_neg Bool.false_ne_true, Nat.zero_add] at hsigns
    rw [hsigns]
    exact hnanos.bind fun n hn => .pure hn
  | true =>
    rw [hnegative, if_pos rfl] at hsigns
    rcases hnanos with hnanos | ⟨n, hnanos, hn⟩
    · rw [hnanos]
      exact .failure
    · have hmin : n ≠ minInt128 := fun hn => h ⟨hnegative, hn ▸ hnanos⟩
      rw [hnanos, pure_bind, if_pos rfl, negate_of_ne hmin]
      have hle := hn.le_max
      have hleast := hn.least
      unfold minInt128 maxInt128 at *
      refine .pure ⟨?_, ?_, fun hfew => ?_, fun hnone => ?_⟩
      · simp only [maxInt128]; omega
      · simp only [minInt128]; omega
      · simp only [maxInt128]; omega
      · omega

/-! ### Intervals -/

/-- Reading the tokens leads from one total to another. -/
inductive Sums : Int → List (List Char) → Int → Prop
  | rest (total : Int) : Sums total [] total
  | clock {total n final : Int} {token : List Char} {rest : List (List Char)}
      (hcolon : ':' ∈ token) (hread : readClock? token = pure n)
      (hfits : within128 (total + n) = some (total + n)) (h : Sums (total + n) rest final) :
    Sums total (token :: rest) final
  | amount {total n unit final : Int} {token word : List Char} {a : Amount}
      {rest : List (List Char)} (hcolon : ':' ∉ token) (hamount : readAmount? token = some a)
      (hunit : intervalUnit? word = some unit) (hscale : a.scale? unit = pure n)
      (hfits : within128 (total + n) = some (total + n)) (h : Sums (total + n) rest final) :
    Sums total (token :: word :: rest) final

/-- Behind some tokens that are read comes a clock that overflows, or, at the end,
`ago` with the least word to negate. -/
def Meets (total : Int) (parts : Nat) (tokens : List (List Char)) : Prop :=
  ∃ before word behind reached, tokens = before ++ word :: behind ∧ Sums total before reached ∧
    (':' ∈ word ∧ ClockOverflows word ∨
      isAgo word = true ∧ behind = [] ∧ (0 < parts ∨ before ≠ []) ∧ reached = minInt128)

theorem not_mem_of_isAgo {token : List Char} (h : isAgo token = true) : ':' ∉ token := by
  intro hcolon
  have hlower : ':' ∈ token.map Char.toLower := List.mem_map.mpr ⟨':', hcolon, rfl⟩
  rw [eq_of_beq h] at hlower
  simp at hlower

theorem intervalUnit?_nonneg {word : List Char} {unit : Int} (h : intervalUnit? word = some unit) :
    0 ≤ unit := by
  unfold intervalUnit? at h
  split at h <;> cases h <;> decide

theorem not_meets_nil (total : Int) (parts : Nat) : ¬ Meets total parts [] := by
  rintro ⟨before, word, behind, reached, htokens, -⟩
  cases before <;> cases htokens

/-- What the first token can be. -/
theorem meets_cons {total : Int} {parts : Nat} {token : List Char} {rest : List (List Char)}
    (hago : ¬(isAgo token = true ∧ rest = [] ∧ 0 < parts)) :
    Meets total parts (token :: rest) ↔
      ':' ∈ token ∧ (ClockOverflows token ∨
        ∃ n, readClock? token = pure n ∧ within128 (total + n) = some (total + n) ∧
          Meets (total + n) (parts + 1) rest) ∨
      ':' ∉ token ∧ ∃ a word more unit n, rest = word :: more ∧ readAmount? token = some a ∧
        intervalUnit? word = some unit ∧ a.scale? unit = pure n ∧
        within128 (total + n) = some (total + n) ∧ Meets (total + n) (parts + 1) more := by
  constructor
  · rintro ⟨before, word, behind, reached, htokens, hsums, hword⟩
    cases hsums with
    | rest =>
      cases htokens
      rcases hword with ⟨hcolon, hclock⟩ | ⟨hword, hbehind, hparts, -⟩
      · exact .inl ⟨hcolon, .inl hclock⟩
      · exact absurd ⟨hword, hbehind, hparts.resolve_right fun h => h rfl⟩ hago
    | @clock _ n _ _ before hcolon hread hfits h =>
      cases htokens
      refine .inl ⟨hcolon, .inr ⟨n, hread, hfits, before, word, behind, reached, rfl, h, ?_⟩⟩
      exact hword.imp_right fun ⟨hword, hbehind, _, hleast⟩ =>
        ⟨hword, hbehind, .inl (Nat.succ_pos _), hleast⟩
    | @amount _ n unit _ _ unitWord a before hcolon hamount hunit hscale hfits h =>
      cases htokens
      refine .inr ⟨hcolon, a, unitWord, _, unit, n, rfl, hamount, hunit, hscale, hfits,
        before, word, behind, reached, rfl, h, ?_⟩
      exact hword.imp_right fun ⟨hword, hbehind, _, hleast⟩ =>
        ⟨hword, hbehind, .inl (Nat.succ_pos _), hleast⟩
  · rintro (⟨hcolon, hclock | ⟨n, hread, hfits, hmeets⟩⟩ |
      ⟨hcolon, a, unitWord, more, unit, n, rfl, hamount, hunit, hscale, hfits, hmeets⟩)
    · exact ⟨[], token, rest, total, rfl, .rest total, .inl ⟨hcolon, hclock⟩⟩
    · obtain ⟨before, word, behind, reached, rfl, hsums, hword⟩ := hmeets
      refine ⟨token :: before, word, behind, reached, rfl, .clock hcolon hread hfits hsums, ?_⟩
      exact hword.imp_right fun ⟨hword, hbehind, _, hleast⟩ =>
        ⟨hword, hbehind, .inr (List.cons_ne_nil _ _), hleast⟩
    · obtain ⟨before, word, behind, reached, rfl, hsums, hword⟩ := hmeets
      refine ⟨token :: unitWord :: before, word, behind, reached, rfl,
        .amount hcolon hamount hunit hscale hfits hsums, ?_⟩
      exact hword.imp_right fun ⟨hword, hbehind, _, hleast⟩ =>
        ⟨hword, hbehind, .inr (List.cons_ne_nil _ _), hleast⟩

theorem negate_overflows_iff (n : Int) : (negate n).Overflows ↔ n = minInt128 := by
  by_cases hn : n = minInt128
  · subst hn
    exact iff_of_true rfl rfl
  · rw [negate_of_ne hn]
    exact iff_of_false (Reading.not_overflows_pure _) hn

/-- Adding up in the word before the rest of the tokens. -/
theorem within128_bind_overflows (n : Int) (k : Int → Reading Int) :
    (liftM (within128 n) >>= k).Overflows ↔ within128 n = some n ∧ (k n).Overflows := by
  unfold Reading.Overflows
  rw [Reading.within128_bind_eq Reading.overflow_ne_failure, within128_eq_some_iff, and_iff_left rfl]

theorem meets_ago {total : Int} {parts : Nat} {token : List Char} (hago : isAgo token = true)
    (hparts : 0 < parts) : Meets total parts [token] ↔ total = minInt128 := by
  constructor
  · rintro ⟨before, word, behind, reached, htokens, hsums, hword⟩
    obtain ⟨rfl, hlast⟩ : before = [] ∧ [token] = word :: behind := by
      cases before with
      | nil => exact ⟨rfl, htokens⟩
      | cons first more => simp at htokens
    cases hlast
    cases hsums
    rcases hword with ⟨hcolon, -⟩ | ⟨-, -, -, hleast⟩
    · exact absurd hcolon (not_mem_of_isAgo hago)
    · exact hleast
  · rintro rfl
    exact ⟨[], token, [], minInt128, rfl, .rest _, .inr ⟨hago, rfl, .inl hparts, rfl⟩⟩

/-- Reading an interval overflows where such a clock or such an `ago` is met. -/
theorem sumInterval?_overflows_iff (total : Int) (parts : Nat) (tokens : List (List Char)) :
    (sumInterval? total parts tokens).Overflows ↔ Meets total parts tokens := by
  fun_induction sumInterval? total parts tokens with
  | case1 => exact iff_of_false Reading.not_overflows_failure (not_meets_nil _ _)
  | case2 => exact iff_of_false (Reading.not_overflows_pure _) (not_meets_nil _ _)
  | case3 total parts token rest hlast =>
    simp only [Bool.and_eq_true, List.isEmpty_iff, decide_eq_true_eq] at hlast
    obtain ⟨⟨hago, rfl⟩, hparts⟩ := hlast
    rw [negate_overflows_iff, meets_ago hago hparts]
  | case4 total parts token rest hlast hcolon ih =>
    have hcolon : ':' ∈ token := by simpa using hcolon
    rw [meets_cons (by simpa [and_assoc] using hlast)]
    by_cases hclock : ClockOverflows token
    · refine iff_of_true ?_ (.inl ⟨hcolon, .inl hclock⟩)
      exact Reading.bind_overflows.mpr (.inl (readClock?_of_overflows hclock))
    · rw [(quiet_readClock? hclock).bind_overflows]
      simp only [within128_bind_overflows, ih, hcolon, hclock, false_or, not_true, false_and,
        or_false, true_and]
  | case5 total parts token rest hlast hcolon hamount =>
    have hcolon : ':' ∉ token := by simpa using hcolon
    rw [meets_cons (by simpa [and_assoc] using hlast)]
    exact iff_of_false Reading.not_overflows_failure (by simp [hcolon, hamount])
  | case6 total parts token hcolon amount hamount hlast =>
    have hcolon : ':' ∉ token := by simpa using hcolon
    have hsecond : 0 ≤ second := by decide
    have hquiet := (quiet_scale? hamount hsecond).bind (k := fun n => liftM (within128 (total + n)))
      fun n _ => (quiet_within128 (total + n)).mono fun _ _ => trivial
    rw [meets_cons (by simpa [and_assoc] using hlast)]
    exact iff_of_false hquiet.not_overflows (by simp [hcolon])
  | case7 total parts token hcolon amount word rest hamount hlast ih =>
    have hcolon : ':' ∉ token := by simpa using hcolon
    have hunit : Quiet (0 ≤ ·) (liftM (intervalUnit? word)) := .lift fun _ => intervalUnit?_nonneg
    rw [meets_cons (by simp), hunit.bind_overflows]
    constructor
    · rintro ⟨unit, hword, hover⟩
      have hword := Reading.lift_eq_pure.mp hword
      rw [(quiet_scale? hamount (intervalUnit?_nonneg hword)).bind_overflows] at hover
      obtain ⟨n, hscale, hover⟩ := hover
      rw [within128_bind_overflows, ih] at hover
      exact .inr ⟨hcolon, amount, word, rest, unit, n, rfl, hamount, hword, hscale, hover⟩
    · rintro (⟨hmem, -⟩ | ⟨-, a, _, _, unit, n, hrest, ha, hword, hscale, hfits, hmeets⟩)
      · exact absurd hmem hcolon
      · cases hrest
        rw [hamount] at ha
        cases ha
        refine ⟨unit, Reading.lift_eq_pure.mpr hword, ?_⟩
        rw [(quiet_scale? hamount (intervalUnit?_nonneg hword)).bind_overflows]
        exact ⟨n, hscale, (within128_bind_overflows _ _).mpr ⟨hfits, (ih _).mpr hmeets⟩⟩

/-! ### Compact literals -/

theorem compactUnit?_nonneg {cs : List Char} {unit : Int} (h : compactUnit? cs = some unit) :
    0 ≤ unit := by
  unfold compactUnit? at h
  split at h <;> cases h <;> decide

theorem quiet_sumCompact? {total : Int} (htotal : 0 ≤ total) (cs : List Char) :
    Quiet (fun n => 0 ≤ n) (sumCompact? total cs) := by
  fun_induction sumCompact? total cs with
  | case1 => exact .pure htotal
  | case2 total c rest hc ih =>
    have hsigns : minuses (c :: rest.takeWhile isAmountChar) = 0 := by
      refine List.count_eq_zero.mpr fun hminus => ?_
      have hall : ∀ d ∈ c :: rest.takeWhile isAmountChar, isAmountChar d = true := by
        intro d hd
        rcases List.mem_cons.mp hd with rfl | hd
        · exact hc
        · exact List.mem_takeWhile_imp hd
      exact absurd (hall '-' hminus) (by decide)
    refine (Quiet.lift fun amount ha => ha).bind fun amount hamount => ?_
    refine (Quiet.lift fun unit hu => compactUnit?_nonneg hu).bind fun unit hunit => ?_
    refine (quiet_scale? hamount hunit).bind fun n hn => ?_
    refine (quiet_within128 _).bind fun sum hsum => ?_
    have hnonneg : 0 ≤ n := hn.2.2 hsigns
    exact ih sum (by omega)
  | case3 => exact .failure

/-- The sum of a compact literal is not negative, and so never the least word. -/
theorem quiet_readCompact? (cs : List Char) : Quiet (fun _ => True) (readCompact? cs) := by
  unfold readCompact?
  dsimp only
  split
  · exact .failure
  · refine (quiet_sumCompact? (Int.le_refl 0) _).bind fun n hn => ?_
    have hmin : n ≠ minInt128 := by
      unfold minInt128
      omega
    split
    · rw [negate_of_ne hmin]
      exact .pure trivial
    · exact .pure trivial

/-! ### Signs -/

/-- Without minus signs the sum does not fall, and one does not take it to the least word. -/
theorem Sums.bounded {total final : Int} {tokens : List (List Char)} (h : Sums total tokens final) :
    (minuses tokens.flatten = 0 → total ≤ final) ∧
      (minuses tokens.flatten ≤ 1 → 0 ≤ total → -maxInt128 ≤ final) := by
  induction h with
  | rest total =>
    unfold maxInt128
    omega
  | @clock total n final token rest hcolon hread hfits h ih =>
    have hn : Bounded (minuses token) n := by
      refine Quiet.of_eq_pure (quiet_readClock? fun hclock => ?_) hread
      exact Reading.overflow_ne_pure n ((readClock?_of_overflows hclock).symm.trans hread)
    have hsigns : minuses (token :: rest).flatten = minuses token + minuses rest.flatten := by
      simp [minuses]
    have hnonneg := hn.nonneg
    have hleast := hn.neg_max_le
    omega
  | @amount total n unit final token word a rest hcolon hamount hunit hscale hfits h ih =>
    obtain ⟨hleast, -, hnonneg⟩ :=
      (quiet_scale? hamount (intervalUnit?_nonneg hunit)).of_eq_pure hscale
    have hsigns : minuses (token :: word :: rest).flatten =
        minuses token + minuses word + minuses rest.flatten := by
      simp [minuses, Nat.add_assoc]
    omega

/-- Wherever a reading overflows there are two minus signs. -/
theorem Meets.two_le_minuses {tokens : List (List Char)} (h : Meets 0 0 tokens) :
    2 ≤ minuses tokens.flatten := by
  obtain ⟨before, word, behind, reached, rfl, hsums, hword⟩ := h
  have hsigns : minuses (before ++ word :: behind).flatten =
      minuses before.flatten + minuses word + minuses behind.flatten := by
    simp [minuses, Nat.add_assoc]
  rcases hword with ⟨-, hclock⟩ | ⟨-, -, -, hleast⟩
  · have hclockSigns := minuses_of_clockOverflows hclock
    omega
  · subst hleast
    by_contra hfew
    exact absurd (hsums.bounded.2 (by omega) (Int.le_refl 0)) (by decide)

theorem minuses_words (cs : List Char) : minuses (Text.words cs).flatten = minuses cs := by
  have hfilter : (Text.words cs).flatten = (Text.pieces Text.isBlank cs).flatten :=
    List.flatten_filter_not_isEmpty
  rw [hfilter, minuses_pieces (by decide)]

theorem minuses_trimChars_le (cs : List Char) : minuses (Text.trimChars cs) ≤ minuses cs := by
  have hsub : (Text.trimChars cs).Sublist cs := by
    rw [Text.trimChars_eq]
    exact (List.rdropWhile_prefix _ _).sublist.trans (List.dropWhile_sublist _)
  exact hsub.count_le _

/-! ### Either notation -/

/-- The two texts of zero are read at once, and as intervals they do not overflow either. -/
theorem not_meets_zero {cs : List Char} (h : cs = ['0'] ∨ cs = ['0', 's']) :
    ¬ Meets 0 0 (Text.words cs) := by
  rw [← sumInterval?_overflows_iff]
  rcases h with rfl | rfl <;> decide

theorem readLiteral?_overflows_iff (text : String) :
    (readLiteral? text).Overflows ↔ Meets 0 0 (Text.words (Text.trimChars text.toList)) := by
  unfold readLiteral?
  dsimp only
  split
  · next hzero => exact iff_of_false (Reading.not_overflows_pure _) (not_meets_zero hzero)
  · have hend : ∀ n : Int, Quiet (fun _ => True)
        (if minInt64 ≤ n ∧ n ≤ maxInt64 then liftM (ofNanos? n)
        else failure : Reading Duration) := by
      intro n
      split
      · exact .lift fun _ _ => trivial
      · exact .failure
    rw [Reading.bind_overflows_of_quiet hend, Reading.orElse_overflows (quiet_readCompact? _)]
    exact sumInterval?_overflows_iff 0 0 _

/-- Reading a literal overflows exactly when it is read as an interval up to a clock behind a minus
whose parts add up to the least word, or up to a last `ago` behind parts that add up to it. No text
with fewer than two minus signs comes to that. -/
theorem literal_overflows_iff (text : String) :
    (read? text = .error {} ↔ Meets 0 0 (Text.words (Text.trimChars text.toList))) ∧
      (read? text = .error {} → 2 ≤ minuses text.toList) := by
  have hmeets := readLiteral?_overflows_iff text
  rw [Reading.overflows_iff, ← read?] at hmeets
  refine ⟨hmeets, fun hover => ?_⟩
  calc 2 ≤ minuses (Text.words (Text.trimChars text.toList)).flatten :=
        (hmeets.mp hover).two_le_minuses
    _ = minuses (Text.trimChars text.toList) := minuses_words _
    _ ≤ minuses text.toList := minuses_trimChars_le _

/-- Two amounts that add up to the least word, before `ago`. -/
def leastAgo : String := "-170141183460469231731687303715.884105727 sec -0.000000001 sec ago"

/-- So two minus signs can be enough. -/
theorem leastAgo_overflows :
    read? leastAgo = .error {} ∧ Meets 0 0 (Text.words (Text.trimChars leastAgo.toList)) ∧
      minuses leastAgo.toList = 2 := by
  have hover : read? leastAgo = .error {} := by decide +kernel
  exact ⟨hover, (literal_overflows_iff leastAgo).1.mp hover, by decide +kernel⟩

def leastClock : String :=
  "-0:-1:-170141183460469231731687303655.884105728 170141183460469231731687303715.884105727"

/-- The clock comes to the least word behind its minus, and what stands behind it is not read. -/
theorem leastClock_overflows : ¬∀ text, ∃ d, read? text = .ok d := by
  intro h
  obtain ⟨d, hd⟩ := h leastClock
  have hover : read? leastClock = .error {} := by decide +kernel
  cases hover.symm.trans hd

end TenantSchema.Duration
