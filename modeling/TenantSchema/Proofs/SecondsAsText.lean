import TenantSchema.Proofs.Clocks
import TenantSchema.Proofs.Redecoding
import TenantSchema.Proofs.WireRoundTrip

/-!
# Seconds as a number and as text

A bare number in a duration literal counts seconds, and so does a number that is no text. Only their
limits differ: the nanoseconds of a literal must fit into a 64-bit word, those of a number into the
longest span. Between the two limits a number of seconds is a span and its text is none.
-/

namespace TenantSchema

open TenantSchema.Number

namespace Duration

/-! ### Limits -/

/-- The most seconds whose nanoseconds a 64-bit word holds. -/
def literalSeconds : Nat := 9223372036

/-- The most whole seconds of a span. -/
def longestSeconds : Nat := 9223372036854775

theorem ofSeconds?_isSome_iff (n : Int) : (ofSeconds? n).isSome ↔ n.natAbs ≤ longestSeconds := by
  have hsecond : second = 1000000000 := rfl
  unfold ofSeconds? ofNanos? longestSeconds maxDuration maxInt64
  rw [hsecond]
  split
  · next h => exact iff_of_true rfl (by omega)
  · next h => exact iff_of_false (by simp) (by omega)

theorem seconds_in_word_iff (n : Int) :
    (minInt64 ≤ n * second ∧ n * second ≤ maxInt64) ↔ n.natAbs ≤ literalSeconds := by
  have hsecond : second = 1000000000 := rfl
  unfold minInt64 maxInt64 literalSeconds
  rw [hsecond]
  omega

/-! ### Whole seconds as a literal -/

theorem isNumeral_toDigits (n : Nat) : IsNumeral (Nat.toDigits 10 n) :=
  ⟨Nat.toDigits_ne_nil, isDigit_of_mem_toDigits n⟩

/-- What is written in front of an integer. -/
def signOf (n : Int) : Sign := if n < 0 then .minus else .absent

theorem intDigits_eq (n : Int) : intDigits n = (signOf n).text ++ Nat.toDigits 10 n.natAbs := by
  unfold intDigits signOf
  split <;> rfl

theorem apply_signOf (n : Int) (k : Nat) : (signOf n).apply ((n.natAbs * k : Nat) : Int) = n * k := by
  unfold signOf
  by_cases hneg : n < 0
  · have hn : n = -(n.natAbs : Int) := by omega
    rw [if_pos hneg, Sign.apply_minus, Int.natCast_mul, ← Int.neg_mul, ← hn]
  · have hn : (n.natAbs : Int) = n := by omega
    rw [if_neg hneg, Sign.apply_absent, Int.natCast_mul, hn]

theorem isLiteral_intDigits (n : Int) : IsLiteral (intDigits n) n := by
  refine ⟨signOf n, _, intDigits_eq n, isNumeral_toDigits n.natAbs, ?_⟩
  have hvalue := apply_signOf n 1
  unfold numeralValue
  rw [Nat.ofDigitChars_ten_toDigits]
  simpa using hvalue.symm

/-- The decimal that an integer is written as. -/
def SignedDecimal.ofInt (n : Int) : SignedDecimal where
  sign := signOf n
  whole := Nat.toDigits 10 n.natAbs
  fraction := none
  isNumeral := (List.append_nil (Nat.toDigits 10 n.natAbs)).symm ▸ isNumeral_toDigits n.natAbs

namespace SignedDecimal

variable (n : Int)

theorem text_ofInt : (ofInt n).text = intDigits n := by
  have hbody : (ofInt n).body = Nat.toDigits 10 n.natAbs := List.append_nil _
  rw [intDigits_eq, text, hbody]
  rfl

theorem magnitude_ofInt : (ofInt n).magnitude = n.natAbs * 1000000000 := by
  have hdigits : (ofInt n).digits = Nat.toDigits 10 n.natAbs := List.append_nil _
  have hdenominator : (ofInt n).denominator = 1 := rfl
  unfold magnitude numeralValue
  rw [hdigits, hdenominator, Nat.ofDigitChars_ten_toDigits, Nat.div_one]

theorem value_ofInt : (ofInt n).value = n * second := by
  unfold value
  rw [magnitude_ofInt]
  exact apply_signOf n 1000000000

end SignedDecimal

/-- A decimal that stands alone counts seconds. -/
theorem sumInterval?_decimal {d : SignedDecimal} (h : (d.magnitude : Int) ≤ maxInt128) :
    sumInterval? 0 0 [d.text] = pure d.value := by
  have hwhole : (numeralValue d.whole : Int) ≤ maxInt128 := by
    have hlow := d.whole_le_magnitude
    omega
  have hread : readAmount? d.text = some d.amount := by
    rw [d.readAmount?_text, within128_natCast, if_pos hwhole]
    rfl
  have hcolon : d.text.contains ':' = false := by
    simpa using d.colon_notMem
  have hword : within128 (0 + d.value) = some d.value := by
    rw [Int.zero_add]
    refine if_pos ?_
    unfold SignedDecimal.value maxInt128 minInt128 at *
    cases d.sign <;> simp only [Sign.apply_absent, Sign.apply_plus, Sign.apply_minus] <;> omega
  unfold sumInterval?
  rw [if_neg (by simp), hcolon, if_neg Bool.false_ne_true, hread]
  dsimp only
  rw [d.scale?_amount, if_pos h, pure_bind, hword]
  rfl

/-! ### Reading the text of an integer -/

section IntText

variable (n : Int)

theorem isBlank_of_mem_intDigits {c : Char} (hc : c ∈ intDigits n) : Text.isBlank c = false :=
  isBlank_of_isNumeral (List.all_eq_true.mp (intDigits_numerals n) c hc)

theorem words_intDigits : Text.words (intDigits n) = [intDigits n] := by
  unfold Text.words
  rw [pieces_of_forall fun _ => isBlank_of_mem_intDigits n]
  simpa using intDigits_ne_nil n

/-- Zero alone is written as zero, and no number is written with a unit. -/
theorem intDigits_ne_zero (h : n ≠ 0) : ¬ (intDigits n = ['0'] ∨ intDigits n = ['0', 's']) := by
  rintro (hzero | hunit)
  · have hliteral := isLiteral_intDigits n
    rw [hzero] at hliteral
    exact h (hliteral.unique (isLiteral_intDigits 0))
  · have hletter := List.all_eq_true.mp (intDigits_numerals n) 's' (by simp [hunit])
    exact absurd hletter (by decide)

theorem readInterval?_intDigits {n : Int} (hmin : minInt64 ≤ n) (hmax : n ≤ maxInt64) :
    readInterval? (intDigits n) = pure (n * second) := by
  have hword : ((SignedDecimal.ofInt n).magnitude : Int) ≤ maxInt128 := by
    rw [SignedDecimal.magnitude_ofInt]
    unfold minInt64 at hmin
    unfold maxInt64 at hmax
    unfold maxInt128
    omega
  have hsum := sumInterval?_decimal hword
  rw [SignedDecimal.text_ofInt, SignedDecimal.value_ofInt] at hsum
  unfold readInterval?
  rw [words_intDigits, hsum]

/-- The text of an integer is a literal of so many seconds, if their nanoseconds fit into a word. -/
theorem read?_intText {n : Int} (hmin : minInt64 ≤ n) (hmax : n ≤ maxInt64) :
    read? (intText n) = .ok (if n.natAbs ≤ literalSeconds then ofSeconds? n else none) := by
  by_cases hn : n = 0
  · subst hn
    rfl
  · have htrim : Text.trimChars (intText n).toList = intDigits n := by
      unfold intText
      rw [String.toList_ofList, Text.trimChars_of_forall fun _ => isBlank_of_mem_intDigits n]
    unfold read? readLiteral?
    rw [htrim]
    dsimp only
    have hfirst : (readInterval? (intDigits n) <|> readCompact? (intDigits n)) =
        pure (n * second) := by
      rw [readInterval?_intDigits hmin hmax]
      rfl
    rw [if_neg (intDigits_ne_zero n hn), hfirst, pure_bind]
    simp only [seconds_in_word_iff]
    split <;> rfl

end IntText

end Duration

open Duration

/-! ### Spans of a type -/

/-- The outcome is a conversion error. -/
def FailsToConvert (outcome : Except TypeError Value) : Prop :=
  ∃ e, outcome = .error e ∧ e.errorClass = .conversion

/-- Two outcomes tell the same: they are equal, or both are conversion errors. -/
def SameMeaning (a b : Except TypeError Value) : Prop :=
  a = b ∨ FailsToConvert a ∧ FailsToConvert b

namespace DurationType

variable (t : DurationType)

theorem run_decode (source : Source) {τ : Type} [DictionarySource τ] (w : World τ) :
    ((FieldType.element (.duration t)).decode source : Decoding τ Value).run w =
      (t.decode source.input, w) := by
  refine FieldType.run_decodeBy_element (fun _ => rfl) (fun _ => rfl) (fun v hv => ?_) w
  obtain ⟨_, -, hvalid⟩ := of_decode hv
  exact hvalid

theorem decode_of_span_error {input : Input} {e : TypeError} (h : span input = .error e) :
    t.decode input = .error e := by
  unfold decode
  rw [h]
  rfl

theorem decode_congr {input input' : Input} (h : span input = span input') :
    t.decode input = t.decode input' := by
  unfold decode
  rw [h]

/-- A bound that is broken is no failure to convert. -/
theorem not_failsToConvert_of_span {input : Input} {d : Duration}
    (h : span input = .ok (some d)) : ¬ FailsToConvert (t.decode input) := by
  have hdecode : t.decode input =
      (do t.validate (.duration d); return Value.duration d : Except TypeError Value) := by
    unfold decode
    rw [h]
    rfl
  rintro ⟨e, he, hclass⟩
  rw [hdecode] at he
  cases hvalid : t.validate (.duration d) with
  | ok _ =>
    rw [hvalid] at he
    cases he
  | error e' =>
    rw [hvalid] at he
    cases he
    unfold validate at hvalid
    dsimp only at hvalid
    split at hvalid <;> cases hvalid <;> cases hclass

section Text

variable {s text : String} {d : Duration}

theorem span_text_of_some (hs : Text.nonBlank? s = some text) (hd : read? text = .ok (some d)) :
    span (.value (.text s)) = .ok (some d) := by
  simp only [span, hs, hd]

theorem span_text_of_none (hs : Text.nonBlank? s = some text) (hd : read? text = .ok none) :
    span (.value (.text s)) = .error (.parse text .duration) := by
  simp only [span, hs, hd]

end Text

section Seconds

variable (n : Int64)

theorem span_int : span (.value (.int n)) = ofNumber (intText n.toInt) (ofSeconds? n.toInt) := rfl

theorem span_int_of_le (h : n.toInt.natAbs ≤ longestSeconds) :
    ∃ d : Duration, d.nanos = n.toInt * second ∧ span (.value (.int n)) = .ok (some d) := by
  obtain ⟨d, hd⟩ := Option.isSome_iff_exists.mp ((ofSeconds?_isSome_iff n.toInt).mpr h)
  refine ⟨d, nanos_of_ofNanos? hd, ?_⟩
  rw [span_int, hd]
  rfl

theorem span_int_of_gt (h : longestSeconds < n.toInt.natAbs) :
    span (.value (.int n)) = .error (.inexact (intText n.toInt) .duration) := by
  have hnone : ofSeconds? n.toInt = none := by
    refine Option.not_isSome_iff_eq_none.mp fun hsome => ?_
    have hle := (ofSeconds?_isSome_iff n.toInt).mp hsome
    omega
  rw [span_int, hnone]
  rfl

theorem span_intText : span (.value (.text (intText n.toInt))) =
    if n.toInt.natAbs ≤ literalSeconds then span (.value (.int n))
    else .error (.parse (intText n.toInt) .duration) := by
  have hsome := nonBlank?_intText n.toInt
  have hread := read?_intText (minInt64_le_toInt n) (toInt_le_maxInt64 n)
  by_cases hshort : n.toInt.natAbs ≤ literalSeconds
  · have hlong : n.toInt.natAbs ≤ longestSeconds := Nat.le_trans hshort (by decide)
    obtain ⟨d, hd⟩ := Option.isSome_iff_exists.mp ((ofSeconds?_isSome_iff n.toInt).mpr hlong)
    rw [if_pos hshort, hd] at hread
    rw [if_pos hshort, span_text_of_some hsome hread, span_int, hd]
    rfl
  · rw [if_neg hshort] at hread
    rw [if_neg hshort, span_text_of_none hsome hread]

end Seconds

end DurationType

/-- A number of seconds, native or on the wire, and its text tell the same exactly if the text is
short enough for a literal, when they are decoded alike, or neither is a span. In between only the
number is decoded as the span that it counts. -/
theorem seconds_as_text_agree_iff (t : DurationType) (n : Int64) {number text : Source}
    (hnumber : number = .value (.int n) ∨ number = .wire (.int (.ofInt64 n)))
    (htext : text = .value (.text (intText n.toInt)) ∨ text = .wire (.string (intText n.toInt)))
    {τ : Type} [DictionarySource τ] (w : World τ) :
    let decoded (source : Source) :=
      (((FieldType.element (.duration t)).decode source : Decoding τ Value).run w).1
    (SameMeaning (decoded number) (decoded text) ↔
        n.toInt.natAbs ≤ literalSeconds ∨ longestSeconds < n.toInt.natAbs) ∧
      (n.toInt.natAbs ≤ literalSeconds → decoded number = decoded text) ∧
      (literalSeconds < n.toInt.natAbs →
        decoded text = .error (.parse (intText n.toInt) .duration)) ∧
      (n.toInt.natAbs ≤ longestSeconds → ∃ d : Duration, d.nanos = n.toInt * second ∧
        decoded number = decoded (.value (.duration d))) := by
  intro decoded
  have hdecoded (source : Source) : decoded source = t.decode source.input :=
    congrArg Prod.fst (t.run_decode source w)
  have hnumber : number.input = .value (.int n) := by
    rcases hnumber with rfl | rfl
    · rfl
    · exact Input.ofWire_int64 n
  have htext : text.input = .value (.text (intText n.toInt)) := by
    rcases htext with rfl | rfl <;> rfl
  rw [hdecoded number, hdecoded text, hnumber, htext]
  have hspan := DurationType.span_intText n
  have hshort (h : n.toInt.natAbs ≤ literalSeconds) :
      t.decode (.value (.int n)) = t.decode (.value (.text (intText n.toInt))) := by
    rw [if_pos h] at hspan
    exact t.decode_congr hspan.symm
  have hparse (h : literalSeconds < n.toInt.natAbs) :
      t.decode (.value (.text (intText n.toInt))) = .error (.parse (intText n.toInt) .duration) := by
    rw [if_neg (by omega)] at hspan
    exact t.decode_of_span_error hspan
  refine ⟨⟨fun hsame => ?_, ?_⟩, hshort, hparse, fun h => ?_⟩
  · by_contra hbetween
    obtain ⟨hlong, hle⟩ := not_or.mp hbetween
    obtain ⟨d, -, hd⟩ := DurationType.span_int_of_le n (by omega)
    refine t.not_failsToConvert_of_span hd ?_
    rcases hsame with heq | ⟨hfails, -⟩
    · rw [heq, hparse (by omega)]
      exact ⟨_, rfl, rfl⟩
    · exact hfails
  · rintro (h | h)
    · exact .inl (hshort h)
    · have hlong : literalSeconds < n.toInt.natAbs := by
        unfold longestSeconds at h
        unfold literalSeconds
        omega
      rw [t.decode_of_span_error (DurationType.span_int_of_gt n h), hparse hlong]
      exact .inr ⟨⟨_, rfl, rfl⟩, ⟨_, rfl, rfl⟩⟩
  · obtain ⟨d, hnanos, hd⟩ := DurationType.span_int_of_le n h
    exact ⟨d, hnanos, (t.decode_congr hd).trans (hdecoded _).symm⟩

/-- The least number whose text is a literal breaks the same bound either way. -/
theorem least_literal_seconds_agree :
    let type : FieldType := .element (.duration ⟨some (-5), none⟩)
    let violation : TypeError :=
      .violation (.durationMin (some ⟨-9223372036000000000, by decide, by decide⟩) (-5))
    ((type.decode (.wire (.int (.ofInt64 (-9223372036))))).run noDictionaries).1 =
        .error violation ∧
      ((type.decode (.value (.text "-9223372036"))).run noDictionaries).1 = .error violation := by
  intro type violation
  have hnumber : ((type.decode (.wire (.int (.ofInt64 (-9223372036))))).run noDictionaries).1 =
      .error violation := by rfl
  have hsame := (seconds_as_text_agree_iff ⟨some (-5), none⟩ (-9223372036) (.inr rfl) (.inl rfl)
    noDictionaries).2.1 (by decide)
  exact ⟨hnumber, hsame.symm.trans hnumber⟩

/-- One second more is a span as a number, and nothing as text. -/
theorem more_seconds_are_no_text :
    ¬(∀ (t : DurationType) (n : Int64),
        SameMeaning (((FieldType.element (.duration t)).decode (.value (.int n))).run
            noDictionaries).1
          (((FieldType.element (.duration t)).decode (.value (.text (intText n.toInt)))).run
            noDictionaries).1) ∧
      (((FieldType.element (.duration ⟨none, none⟩)).decode
        (.value (.int 9223372037))).run noDictionaries).1 =
          .ok (.duration ⟨9223372037000000000, by decide, by decide⟩) ∧
      (((FieldType.element (.duration ⟨none, none⟩)).decode
        (.value (.text "9223372037"))).run noDictionaries).1 =
          .error (.parse "9223372037" .duration) := by
  have hnumber : (((FieldType.element (.duration ⟨none, none⟩)).decode
      (.value (.int 9223372037))).run noDictionaries).1 =
        .ok (.duration ⟨9223372037000000000, by decide, by decide⟩) := by rfl
  have hshown : intText (9223372037 : Int64).toInt = "9223372037" := by decide +kernel
  have hspan := DurationType.span_intText 9223372037
  rw [if_neg (by decide), hshown] at hspan
  have htext : (((FieldType.element (.duration ⟨none, none⟩)).decode
      (.value (.text "9223372037"))).run noDictionaries).1 =
        .error (.parse "9223372037" .duration) := by
    rw [DurationType.run_decode]
    exact DurationType.decode_of_span_error _ hspan
  refine ⟨fun h => ?_, hnumber, htext⟩
  have hsame := h ⟨none, none⟩ 9223372037
  rw [hshown, hnumber, htext] at hsame
  rcases hsame with heq | ⟨⟨e, he, -⟩, -⟩
  · cases heq
  · cases he

end TenantSchema
