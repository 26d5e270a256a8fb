import TenantSchema.Proofs.SignedNumbers

/-!
# The grammar of interval literals

An interval is written in parts with blanks between them: clocks, and decimals with a unit word. At
the end it may have a number of seconds without a word, or `ago`. It is read as the sum of its
parts, or as the negative of that before `ago`. The sum may be the least word, though, which has no
negative: before `ago` the reading then overflows.
-/

namespace TenantSchema.Duration

open TenantSchema.Number

/-! ### The grammar -/

/-- The unit words of intervals, in lower case, with their nanoseconds. -/
def intervalUnits : List (String × Int) :=
  [(["microsecond", "microseconds", "usec", "usecs"], micro),
    (["millisecond", "milliseconds", "msec", "msecs"], milli),
    (["second", "seconds", "sec", "secs"], second),
    (["minute", "minutes", "min", "mins"], minute),
    (["hour", "hours", "hr", "hrs"], hour),
    (["day", "days"], day),
    (["week", "weeks"], week),
    (["mon", "mons", "month", "months"], month),
    (["year", "years", "yr", "yrs"], year)].flatMap fun (names, unit) => names.map (·, unit)

/-- A unit word, in any case. -/
def IsUnitWord (word : List Char) (unit : Int) : Prop :=
  (String.ofList (word.map Char.toLower), unit) ∈ intervalUnits

instance (word : List Char) (unit : Int) : Decidable (IsUnitWord word unit) :=
  inferInstanceAs (Decidable (_ ∈ _))

/-- A part of an interval that does not have to be the last one. -/
inductive IntervalPart
  | clock (token : List Char) (nanos : Int) (colon : ':' ∈ token)
      (accepted : readClock? token = pure nanos)
  | amount (decimal : SignedDecimal) (word : List Char) (unit : Int) (known : IsUnitWord word unit)

/-- What can stand behind the parts. -/
inductive IntervalEnd
  | none
  /-- A number of seconds. -/
  | seconds (decimal : SignedDecimal)
  | ago (word : List Char) (spelt : word.map Char.toLower = ['a', 'g', 'o'])

namespace IntervalPart

def tokens : IntervalPart → List (List Char)
  | clock token _ _ _ => [token]
  | amount decimal word _ _ => [decimal.text, word]

def nanos : IntervalPart → Int
  | clock _ nanos _ _ => nanos
  | amount decimal _ unit _ => decimal.valueIn unit

def Fits : IntervalPart → Prop
  | clock _ _ _ _ => True
  | amount decimal _ unit _ => decimal.FitsIn unit

end IntervalPart

namespace IntervalEnd

def tokens : IntervalEnd → List (List Char)
  | none => []
  | seconds decimal => [decimal.text]
  | ago word _ => [word]

def values : IntervalEnd → List Int
  | seconds decimal => [decimal.valueIn second]
  | none | ago _ _ => []

def Fits : IntervalEnd → Prop
  | seconds decimal => decimal.FitsIn second
  | none | ago _ _ => True

def isSeconds : IntervalEnd → Bool
  | seconds _ => true
  | none | ago _ _ => false

def isAgo : IntervalEnd → Bool
  | ago _ _ => true
  | none | seconds _ => false

/-- What the end makes of the sum. -/
def apply (ending : IntervalEnd) (total : Int) : Int := if ending.isAgo then -total else total

/-- What it is read as. -/
def finish (ending : IntervalEnd) (total : Int) : Reading Int :=
  if ending.isAgo then negate total else pure total

theorem apply_of_not_ago {ending : IntervalEnd} (h : ending.isAgo = false) (total : Int) :
    ending.apply total = total := by
  unfold apply
  rw [h, if_neg Bool.false_ne_true]

theorem finish_eq (ending : IntervalEnd) (total : Int) : ending.finish total =
    if ending.isAgo = true ∧ total = minInt128 then overflow else pure (ending.apply total) := by
  unfold finish apply negate
  cases ending.isAgo <;> simp

theorem finish_ne_failure (ending : IntervalEnd) (total : Int) :
    ending.finish total ≠ failure := by
  rw [finish_eq]
  split
  · exact Reading.overflow_ne_failure
  · exact (Reading.failure_ne_pure _).symm

end IntervalEnd

structure IntervalLiteral where
  parts : List IntervalPart
  ending : IntervalEnd
  nonempty : parts ≠ [] ∨ ending.isSeconds

namespace IntervalLiteral

variable (i : IntervalLiteral)

def tokens : List (List Char) := i.parts.flatMap IntervalPart.tokens ++ i.ending.tokens

/-- What is added up. -/
def values : List Int := i.parts.map IntervalPart.nanos ++ i.ending.values

def total : Int := i.values.sum

def nanos : Int := i.ending.apply i.total

/-- The sum before `ago` has no negative in the word. -/
def NegatesLeast : Prop := i.ending.isAgo = true ∧ i.total = minInt128

instance : Decidable i.NegatesLeast := inferInstanceAs (Decidable (_ ∧ _))

/-- No product and no sum on the way leaves the word. -/
structure Fits : Prop where
  parts : ∀ p ∈ i.parts, p.Fits
  ending : i.ending.Fits
  sums : SumsFit 0 i.values

end IntervalLiteral

/-! ### Words -/

section Words

variable {word : List Char} {unit : Int}

theorem intervalUnit?_congr {word' : List Char}
    (h : word.map Char.toLower = word'.map Char.toLower) :
    intervalUnit? word = intervalUnit? word' := by
  unfold intervalUnit?
  rw [h]

theorem intervalUnit?_eq_some_iff : intervalUnit? word = some unit ↔ IsUnitWord word unit := by
  constructor
  · intro h
    unfold intervalUnit? at h
    unfold IsUnitWord
    generalize String.ofList (word.map Char.toLower) = name at h
    split at h <;> cases h <;> decide +kernel
  · intro h
    have hlower : ∀ u ∈ intervalUnits, u.1.toList.map Char.toLower = u.1.toList ∧
        intervalUnit? u.1.toList = some u.2 := by decide +kernel
    obtain ⟨hname, hunit⟩ := hlower _ h
    rw [← hunit]
    apply intervalUnit?_congr
    rw [hname, String.toList_ofList]

theorem IsUnitWord.pos (h : IsUnitWord word unit) : 1 ≤ unit := by
  have hall : ∀ u ∈ intervalUnits, 1 ≤ u.2 := by decide +kernel
  exact hall _ h

theorem IsUnitWord.le_year (h : IsUnitWord word unit) : unit ≤ year := by
  have hall : ∀ u ∈ intervalUnits, u.2 ≤ year := by decide +kernel
  exact hall _ h

theorem isAgo_iff : isAgo word = true ↔ word.map Char.toLower = ['a', 'g', 'o'] := beq_iff_eq

theorem toLower_of_isAmountChar {c : Char} (h : isAmountChar c = true) : c.toLower = c := by
  unfold isAmountChar at h
  rcases (Bool.or_eq_true _ _).mp h with hdigit | hpoint
  · simp only [Char.isDigit, Bool.and_eq_true, decide_eq_true_eq] at hdigit
    -- capitals come behind the digits
    exact dif_neg fun hcapital => by grind
  · rw [of_decide_eq_true hpoint]
    rfl

/-- A decimal is no `ago`. -/
theorem SignedDecimal.isAgo_text (d : SignedDecimal) : isAgo d.text = false := by
  rw [Bool.eq_false_iff, Ne, isAgo_iff]
  intro hago
  obtain ⟨c, rest, htext, hlower, -⟩ := List.map_eq_cons_iff.mp hago
  have hc : c ∈ d.text := htext ▸ List.mem_cons_self
  rcases d.mem_text hc with rfl | rfl | hamount
  · exact absurd hlower (by decide)
  · exact absurd hlower (by decide)
  · rw [toLower_of_isAmountChar hamount] at hlower
    exact absurd (hlower ▸ hamount) (by decide)

end Words

/-! ### Reading the tokens -/

section Tokens

variable {total n : Int} {count : Nat} {token word : List Char} {rest : List (List Char)}

theorem sumInterval?_clock (hcolon : ':' ∈ token) :
    sumInterval? total count (token :: rest) = (do
      let total ← within128 (total + (← readClock? token))
      sumInterval? total (count + 1) rest) := by
  have hago : isAgo token = false := Bool.eq_false_iff.mpr fun h => not_mem_of_isAgo h hcolon
  conv_lhs => unfold sumInterval?
  rw [hago, if_neg (by simp), if_pos (by simpa using hcolon)]

theorem sumInterval?_amount (hcolon : ':' ∉ token) :
    sumInterval? total count (token :: word :: rest) = (do
      let amount ← readAmount? token
      let unit ← intervalUnit? word
      let total ← within128 (total + (← amount.scale? unit))
      sumInterval? total (count + 1) rest) := by
  conv_lhs => unfold sumInterval?
  rw [if_neg (by simp), if_neg (by simpa using hcolon)]
  cases readAmount? token <;> rfl

theorem sumInterval?_seconds (hcolon : ':' ∉ token) (hago : isAgo token = false) :
    sumInterval? total count [token] = (do
      let amount ← readAmount? token
      within128 (total + (← amount.scale? second))) := by
  unfold sumInterval?
  rw [hago, if_neg (by simp), if_neg (by simpa using hcolon)]
  cases readAmount? token <;> rfl

theorem sumInterval?_ago (hago : isAgo token = true) (hcount : 0 < count) :
    sumInterval? total count [token] = negate total := by
  unfold sumInterval?
  rw [hago, if_pos (by simpa using hcount)]

end Tokens

/-! ### Reading parts -/

section Parts

variable {total n : Int} {count : Nat} {m : Reading Int} (hm : m ≠ failure)

include hm

/-- The part in front is read, and added. -/
theorem sumInterval?_part (p : IntervalPart) (rest : List (List Char)) :
    sumInterval? total count (p.tokens ++ rest) = m ↔
      p.Fits ∧ InWord (total + p.nanos) ∧
        sumInterval? (total + p.nanos) (count + 1) rest = m := by
  cases p with
  | clock token nanos hcolon haccepted =>
    show sumInterval? total count (token :: rest) = m ↔ _
    rw [sumInterval?_clock hcolon, haccepted, pure_bind, Reading.within128_bind_eq hm]
    exact (and_iff_right trivial).symm
  | amount d word unit hknown =>
    show sumInterval? total count (d.text :: word :: rest) = m ↔ _
    rw [sumInterval?_amount d.colon_notMem, intervalUnit?_eq_some_iff.mpr hknown]
    simp only [lift_some, pure_bind]
    rw [d.scale?_bind_eq hknown.pos hknown.le_year hm, Reading.within128_bind_eq hm]
    rfl

/-- What stands behind the parts is read with at least one of them before it, or by itself. -/
theorem sumInterval?_end (ending : IntervalEnd) (htotal : InWord total)
    (hcount : 0 < count ∨ ending.isSeconds) :
    sumInterval? total count ending.tokens = m ↔
      ending.Fits ∧ SumsFit total ending.values ∧
        ending.finish (total + ending.values.sum) = m := by
  cases ending with
  | none =>
    have hcount := hcount.resolve_right Bool.false_ne_true
    have hread : sumInterval? total count [] = pure total := by
      rw [sumInterval?, if_neg (by omega)]
    simp only [IntervalEnd.tokens, IntervalEnd.Fits, IntervalEnd.values, hread, sumsFit_nil,
      List.sum_nil, Int.add_zero, true_and, and_iff_right htotal]
    rfl
  | seconds d =>
    simp only [IntervalEnd.tokens, IntervalEnd.Fits, IntervalEnd.values, sumsFit_cons, sumsFit_nil,
      List.sum_cons, List.sum_nil, Int.add_zero, and_iff_right htotal]
    rw [sumInterval?_seconds d.colon_notMem d.isAgo_text,
      d.scale?_bind_eq (by decide) (by decide) hm, ← bind_pure (liftM (within128 _)),
      Reading.within128_bind_eq hm]
    rfl
  | ago word hword =>
    have hcount := hcount.resolve_right Bool.false_ne_true
    simp only [IntervalEnd.tokens, IntervalEnd.Fits, IntervalEnd.values,
      sumInterval?_ago (isAgo_iff.mpr hword) hcount, sumsFit_nil, List.sum_nil, Int.add_zero,
      true_and, and_iff_right htotal]
    rfl

theorem sumInterval?_tokens (parts : List IntervalPart) (ending : IntervalEnd)
    (htotal : InWord total) (hcount : 0 < count ∨ parts ≠ [] ∨ ending.isSeconds) :
    sumInterval? total count (parts.flatMap IntervalPart.tokens ++ ending.tokens) = m ↔
      (∀ p ∈ parts, p.Fits) ∧ ending.Fits ∧
        SumsFit total (parts.map IntervalPart.nanos ++ ending.values) ∧
        ending.finish (total + (parts.map IntervalPart.nanos ++ ending.values).sum) = m := by
  induction parts generalizing total count with
  | nil =>
    have hcount : 0 < count ∨ ending.isSeconds := hcount.imp_right fun h => h.resolve_left (· rfl)
    rw [List.flatMap_nil, List.map_nil, List.nil_append, List.nil_append,
      sumInterval?_end hm ending htotal hcount]
    simp
  | cons p rest ih =>
    have hnext : 0 < count + 1 ∨ rest ≠ [] ∨ ending.isSeconds := .inl (Nat.succ_pos _)
    rw [List.flatMap_cons, List.append_assoc, sumInterval?_part hm, List.map_cons,
      List.cons_append, sumsFit_cons, List.forall_mem_cons, List.sum_cons, ← Int.add_assoc]
    constructor
    · rintro ⟨hfits, hword, hread⟩
      obtain ⟨hparts, hend, hsums, hn⟩ := (ih hword hnext).mp hread
      exact ⟨⟨hfits, hparts⟩, hend, ⟨htotal, hsums⟩, hn⟩
    · rintro ⟨⟨hfits, hparts⟩, hend, ⟨-, hsums⟩, hn⟩
      have hword := hsums.inWord_start
      exact ⟨hfits, hword, (ih hword hnext).mpr ⟨hparts, hend, hsums, hn⟩⟩

omit hm

/-- Whatever is read is written in parts. -/
theorem exists_parts {tokens : List (List Char)}
    (h : sumInterval? total count tokens = pure n) :
    ∃ (parts : List IntervalPart) (ending : IntervalEnd),
      parts.flatMap IntervalPart.tokens ++ ending.tokens = tokens ∧
        (0 < count ∨ parts ≠ [] ∨ ending.isSeconds) := by
  fun_induction sumInterval? total count tokens with
  | case1 => exact absurd h (Reading.failure_ne_pure n)
  | case2 total count hcount => exact ⟨[], .none, rfl, .inl (Nat.pos_of_ne_zero hcount)⟩
  | case3 total count token rest hlast =>
    simp only [Bool.and_eq_true, List.isEmpty_iff, decide_eq_true_eq] at hlast
    obtain ⟨⟨hago, rfl⟩, hcount⟩ := hlast
    exact ⟨[], .ago token (isAgo_iff.mp hago), rfl, .inl hcount⟩
  | case4 total count token rest hlast hcolon ih =>
    obtain ⟨nanos, haccepted, h⟩ := Reading.bind_eq_pure.mp h
    obtain ⟨parts, ending, rfl, -⟩ := ih _ (Reading.within128_bind_eq_pure.mp h).2
    exact ⟨.clock token nanos (by simpa using hcolon) haccepted :: parts, ending, rfl,
      .inr (.inl (List.cons_ne_nil _ _))⟩
  | case5 => exact absurd h (Reading.failure_ne_pure n)
  | case6 total count token hcolon amount hamount hlast =>
    obtain ⟨d, rfl⟩ := SignedDecimal.exists_text hamount
    exact ⟨[], .seconds d, rfl, .inr (.inr rfl)⟩
  | case7 total count token hcolon amount word rest hamount hlast ih =>
    obtain ⟨d, rfl⟩ := SignedDecimal.exists_text hamount
    obtain ⟨unit, hunit, h⟩ := Reading.lift_bind_eq_pure.mp h
    obtain ⟨nanos, -, h⟩ := Reading.bind_eq_pure.mp h
    obtain ⟨parts, ending, rfl, -⟩ := ih _ (Reading.within128_bind_eq_pure.mp h).2
    exact ⟨.amount d word unit (intervalUnit?_eq_some_iff.mp hunit) :: parts, ending, rfl,
      .inr (.inl (List.cons_ne_nil _ _))⟩

end Parts

/-! ### Reading literals -/

namespace IntervalLiteral

variable (i i' : IntervalLiteral) {cs : List Char} {n : Int}

theorem sumInterval?_tokens {m : Reading Int} (hm : m ≠ failure) :
    sumInterval? 0 0 i.tokens = m ↔ i.Fits ∧ i.ending.finish i.total = m := by
  have hword : InWord 0 := by decide
  rw [tokens, Duration.sumInterval?_tokens hm i.parts i.ending hword (.inr i.nonempty), Int.zero_add]
  constructor
  · rintro ⟨hparts, hending, hsums, hn⟩
    exact ⟨⟨hparts, hending, hsums⟩, hn⟩
  · rintro ⟨hfits, hn⟩
    exact ⟨hfits.parts, hfits.ending, hfits.sums, hn⟩

variable {i}

/-- A literal that fits is read as its value, or overflows before `ago`. -/
theorem Fits.readInterval?_eq (h : i.Fits) (htokens : i.tokens = Text.words cs) :
    readInterval? cs = if i.NegatesLeast then overflow else pure i.nanos := by
  unfold readInterval?
  rw [← htokens]
  exact (i.sumInterval?_tokens (i.ending.finish_ne_failure i.total)).mpr ⟨h, rfl⟩ |>.trans
    (i.ending.finish_eq i.total)

theorem readInterval?_eq_pure_iff : readInterval? cs = pure n ↔
    ∃ i : IntervalLiteral, i.tokens = Text.words cs ∧ i.Fits ∧ ¬ i.NegatesLeast ∧ n = i.nanos := by
  constructor
  · intro h
    obtain ⟨parts, ending, htokens, hcount⟩ := exists_parts h
    let i : IntervalLiteral := ⟨parts, ending, hcount.resolve_left (Nat.lt_irrefl 0)⟩
    have htokens : i.tokens = Text.words cs := htokens
    have hfits : i.Fits := by
      refine ((i.sumInterval?_tokens (Reading.failure_ne_pure n).symm).mp ?_).1
      rw [htokens]
      exact h
    rw [hfits.readInterval?_eq htokens] at h
    split at h
    · exact absurd h (Reading.overflow_ne_pure n)
    · next hleast => exact ⟨i, htokens, hfits, hleast, Reading.pure_eq_iff.mp h⟩
  · rintro ⟨i, htokens, hfits, hleast, rfl⟩
    rw [hfits.readInterval?_eq htokens, if_neg hleast]

/-- One literal behind the other. -/
def append : IntervalLiteral where
  parts := i.parts ++ i'.parts
  ending := i'.ending
  nonempty := i'.nonempty.imp_left (List.append_ne_nil_of_right_ne_nil _)

variable {i'}

section Append

variable (h : i.ending = .none)

include h

theorem tokens_append : (i.append i').tokens = i.tokens ++ i'.tokens := by
  simp [tokens, append, h, IntervalEnd.tokens]

theorem values_append : (i.append i').values = i.values ++ i'.values := by
  simp [values, append, h, IntervalEnd.values]

theorem total_append : (i.append i').total = i.total + i'.total := by
  rw [total, values_append h, List.sum_append, total, total]

theorem fits_append (hfits : i.Fits) (hfits' : i'.Fits) (hsums : SumsFit i.total i'.values) :
    (i.append i').Fits where
  parts := List.forall_mem_append.mpr ⟨hfits.parts, hfits'.parts⟩
  ending := hfits'.ending
  sums := by
    rw [values_append h, sumsFit_append, Int.zero_add]
    exact ⟨hfits.sums, hsums⟩

end Append

end IntervalLiteral

/-- A text is read exactly if its words form an interval literal whose products and sums the word
holds, and as its value, unless the sum is the least word and `ago` stands behind it: such a text
overflows. Of two texts with a blank between them, the first without an end and the second without
`ago`, the totals are added if the word holds the sums. -/
theorem interval_literal_iff (cs : List Char) :
    (∀ n, readInterval? cs = pure n ↔ ∃ i : IntervalLiteral,
        i.tokens = Text.words cs ∧ i.Fits ∧ ¬ i.NegatesLeast ∧ n = i.nanos) ∧
      (∀ i : IntervalLiteral, i.tokens = Text.words cs → i.Fits → i.NegatesLeast →
        readInterval? cs = overflow) ∧
      ∀ (cs' : List Char) (b : Char) (i i' : IntervalLiteral), Text.isBlank b = true →
        i.tokens = Text.words cs → i.Fits → i.ending = .none →
        i'.tokens = Text.words cs' → i'.Fits → i'.ending.isAgo = false →
        SumsFit i.total i'.values →
        readInterval? cs = pure i.total ∧ readInterval? cs' = pure i'.total ∧
          readInterval? (cs ++ b :: cs') = pure (i.total + i'.total) := by
  refine ⟨fun n => IntervalLiteral.readInterval?_eq_pure_iff, fun i htokens hfits hleast => ?_, ?_⟩
  · rw [hfits.readInterval?_eq htokens, if_pos hleast]
  intro cs' b i i' hb htokens hfits hending htokens' hfits' hago hsums
  have hread {cs : List Char} (i : IntervalLiteral) (htokens : i.tokens = Text.words cs)
      (hfits : i.Fits) (hago : i.ending.isAgo = false) : readInterval? cs = pure i.total := by
    have hnot : ¬ i.NegatesLeast := fun h => Bool.false_ne_true (hago.symm.trans h.1)
    rw [hfits.readInterval?_eq htokens, if_neg hnot, IntervalLiteral.nanos,
      IntervalEnd.apply_of_not_ago hago]
  refine ⟨hread i htokens hfits (hending ▸ rfl), hread i' htokens' hfits' hago, ?_⟩
  rw [← IntervalLiteral.total_append hending]
  refine hread (i.append i') ?_ (IntervalLiteral.fits_append hending hfits hfits' hsums) hago
  rw [IntervalLiteral.tokens_append hending, htokens, htokens', Text.words_append hb]

/-- A day. -/
def oneDay : IntervalLiteral where
  parts := [.amount ⟨.absent, ['1'], none, ⟨by simp, by simp⟩⟩ ['D', 'a', 'y'] day
    (by decide +kernel)]
  ending := .none
  nonempty := .inl (List.cons_ne_nil _ _)

/-- Two hours and a half on a clock, and half a second. -/
def clockAndSeconds : IntervalLiteral where
  parts := [.clock ['2', ':', '3', '0'] (2 * hour + 30 * minute) (by decide) (by decide +kernel)]
  ending := .seconds ⟨.absent, [], some ['5'], ⟨by simp, by simp⟩⟩
  nonempty := .inl (List.cons_ne_nil _ _)

theorem day_and_clock_read :
    readInterval? ("1 Day".toList ++ ' ' :: "2:30 .5".toList) = pure 95400500000000 := by
  have hday : oneDay.Fits := by
    refine ⟨List.forall_mem_singleton.mpr ?_, trivial, sumsFit_cons.mpr ⟨by decide, ?_⟩⟩
    · exact (SignedDecimal.fitsIn_iff _ (by decide) (by decide)).mpr (by decide +kernel)
    · exact sumsFit_nil.mpr (by decide +kernel)
  have hclock : clockAndSeconds.Fits := by
    refine ⟨List.forall_mem_singleton.mpr trivial, ?_, sumsFit_cons.mpr ⟨by decide, ?_⟩⟩
    · exact (SignedDecimal.fitsIn_iff _ (by decide) (by decide)).mpr (by decide +kernel)
    · exact sumsFit_cons.mpr ⟨by decide +kernel, sumsFit_nil.mpr (by decide +kernel)⟩
  have hsums : SumsFit oneDay.total clockAndSeconds.values :=
    sumsFit_cons.mpr ⟨by decide +kernel, sumsFit_cons.mpr ⟨by decide +kernel,
      sumsFit_nil.mpr (by decide +kernel)⟩⟩
  exact ((interval_literal_iff "1 Day".toList).2.2 "2:30 .5".toList ' ' oneDay clockAndSeconds
    (by decide) (by decide +kernel) hday rfl (by decide +kernel) hclock rfl hsums).2.2

/-- Two amounts that add up to the least word, before `ago`. -/
def leastBeforeAgo : IntervalLiteral where
  parts :=
    [.amount ⟨.minus, "170141183460469231731687303715".toList, some "884105727".toList,
        ⟨by decide, List.all_eq_true.mp (by decide)⟩⟩ "sec".toList second (by decide +kernel),
      .amount ⟨.minus, ['0'], some "000000001".toList,
        ⟨by decide, List.all_eq_true.mp (by decide)⟩⟩ "sec".toList second (by decide +kernel)]
  ending := .ago "ago".toList (by decide)
  nonempty := .inl (List.cons_ne_nil _ _)

/-- They are not read as the negative of their sum. -/
theorem least_has_no_negative :
    ¬∀ cs n, readInterval? cs = pure n ↔
      ∃ i : IntervalLiteral, i.tokens = Text.words cs ∧ i.Fits ∧ n = i.nanos := by
  intro h
  have htokens : leastBeforeAgo.tokens = Text.words leastAgo.toList := by decide +kernel
  have hfits : leastBeforeAgo.Fits := by
    refine ⟨?_, trivial, sumsFit_cons.mpr ⟨by decide, sumsFit_cons.mpr ⟨by decide +kernel, ?_⟩⟩⟩
    · refine List.forall_mem_cons.mpr ⟨?_, List.forall_mem_singleton.mpr ?_⟩
      all_goals exact (SignedDecimal.fitsIn_iff _ (by decide) (by decide)).mpr (by decide +kernel)
    · exact sumsFit_nil.mpr (by decide +kernel)
  have hread := (h _ _).mpr ⟨leastBeforeAgo, htokens, hfits, rfl⟩
  rw [hfits.readInterval?_eq htokens, if_pos (by decide +kernel)] at hread
  exact Reading.overflow_ne_pure _ hread

end TenantSchema.Duration
