import TenantSchema.Proofs.SignedNumbers

/-!
# The grammar of compact literals

A compact literal is one sign or none and pairs of a decimal and a unit, with nothing between them.
It is read as the sum of its pairs behind the sign. The loop that reads it leaves a shorter text
after every round, and no compact literal is an interval.
-/

namespace TenantSchema.Duration

open TenantSchema.Number
open Reading (Quiet)

/-! ### The grammar -/

/-- The units of compact literals in nanoseconds. Micro is written in three ways. -/
def compactUnits : List (String × Int) :=
  [("ns", 1), ("us", micro), ("µs", micro), ("μs", micro), ("ms", milli), ("s", second),
    ("m", minute), ("h", hour)]

/-- A decimal without a sign, and a unit. -/
structure CompactPair where
  decimal : SignedDecimal
  unsigned : decimal.sign = .absent
  unit : String
  perUnit : Int
  known : (unit, perUnit) ∈ compactUnits

structure CompactLiteral where
  sign : Sign
  pairs : List CompactPair
  ne_nil : pairs ≠ []

namespace CompactPair

variable (p : CompactPair)

def text : List Char := p.decimal.text ++ p.unit.toList

def nanos : Int := p.decimal.valueIn p.perUnit

end CompactPair

namespace CompactLiteral

variable (l : CompactLiteral)

def text : List Char := l.sign.text ++ l.pairs.flatMap CompactPair.text

def total : Int := (l.pairs.map CompactPair.nanos).sum

def nanos : Int := l.sign.apply l.total

/-- No product and no sum on the way leaves the word. -/
structure Fits : Prop where
  products : ∀ p ∈ l.pairs, p.decimal.FitsIn p.perUnit
  sums : SumsFit 0 (l.pairs.map CompactPair.nanos)

end CompactLiteral

/-! ### Units -/

section Units

theorem compactUnit?_of_mem : ∀ u ∈ compactUnits, compactUnit? u.1.toList = some u.2 := by
  decide +kernel

theorem mem_of_compactUnit? {unit : List Char} {perUnit : Int}
    (h : compactUnit? unit = some perUnit) : (String.ofList unit, perUnit) ∈ compactUnits := by
  unfold compactUnit? at h
  generalize String.ofList unit = name at h
  split at h <;> cases h <;> simp [compactUnits]

/-- A unit is written with letters, one at least, and is shorter than a year. -/
structure IsCompactUnit (text : List Char) (nanos : Int) : Prop where
  ne_nil : text ≠ []
  letters : ∀ c ∈ text,
    isAmountChar c = false ∧ Text.isBlank c = false ∧ c ≠ ':' ∧ c ≠ '+' ∧ c ≠ '-'
  pos : 1 ≤ nanos
  le_year : nanos ≤ year

theorem isCompactUnit_of_mem {unit : String} {nanos : Int} (h : (unit, nanos) ∈ compactUnits) :
    IsCompactUnit unit.toList nanos := by
  have hall : ∀ u ∈ compactUnits, u.1.toList ≠ [] ∧ u.1.toList.all (fun c => !isAmountChar c &&
      !Text.isBlank c && c != ':' && c != '+' && c != '-') = true ∧ 1 ≤ u.2 ∧ u.2 ≤ year := by
    decide +kernel
  obtain ⟨hne, hletters, hpos, hyear⟩ := hall _ h
  refine ⟨hne, fun c hc => ?_, hpos, hyear⟩
  simpa [and_assoc] using List.all_eq_true.mp hletters c hc

theorem isBlank_of_isAmountChar {c : Char} (h : isAmountChar c = true) :
    Text.isBlank c = false := by
  apply isBlank_of_isNumeral
  unfold isAmountChar at h
  unfold isNumeral
  rcases (Bool.or_eq_true _ _).mp h with hdigit | hpoint
  · rw [hdigit, Bool.true_or]
  · simp at hpoint
    simp [hpoint]

end Units

/-! ### Reading pairs -/

namespace CompactPair

variable (p : CompactPair) {total n : Int}

theorem isCompactUnit : IsCompactUnit p.unit.toList p.perUnit := isCompactUnit_of_mem p.known

theorem isAmountChar_of_mem {c : Char} (hc : c ∈ p.decimal.text) : isAmountChar c = true := by
  rw [p.decimal.text_of_unsigned p.unsigned] at hc
  exact p.decimal.isAmountChar_of_mem_body hc

theorem startsPair_text (rest : List Char) : StartsPair (p.text ++ rest) := by
  rw [text, List.append_assoc, p.decimal.text_of_unsigned p.unsigned]
  exact startsPair_append p.decimal.body_ne_nil fun _ => p.decimal.isAmountChar_of_mem_body

theorem startsPair_flatMap (pairs : List CompactPair) : StartsPair (pairs.flatMap text) := by
  cases pairs with
  | nil => simp [StartsPair]
  | cons p rest =>
    rw [List.flatMap_cons]
    exact p.startsPair_text _

/-- What the decimal of a pair comes to in its unit, and what is made of it. -/
theorem scale?_bind_eq_pure {k : Int → Reading Int} :
    (do k (← (← readAmount? p.decimal.text).scale? p.perUnit) : Reading Int) = pure n ↔
      p.decimal.FitsIn p.perUnit ∧ k p.nanos = pure n :=
  p.decimal.scale?_bind_eq p.isCompactUnit.pos p.isCompactUnit.le_year
    (Reading.failure_ne_pure n).symm

theorem scale?_eq_pure_iff : (do (← readAmount? p.decimal.text).scale? p.perUnit : Reading Int) =
    pure n ↔ p.decimal.FitsIn p.perUnit ∧ n = p.nanos := by
  have hbind := p.scale?_bind_eq_pure (n := n) (k := pure)
  simp only [bind_pure] at hbind
  rw [hbind, Reading.pure_eq_iff]

theorem sumCompact?_text {rest : List Char} (hrest : StartsPair rest) :
    sumCompact? total (p.text ++ rest) = pure n ↔ p.decimal.FitsIn p.perUnit ∧
      InWord (total + p.nanos) ∧ sumCompact? (total + p.nanos) rest = pure n := by
  have hunit := p.isCompactUnit
  have hletters : p.unit.toList.all (!isAmountChar ·) = true := by
    rw [List.all_eq_true]
    intro c hc
    simp [(hunit.letters c hc).1]
  have hne : p.decimal.text ≠ [] := by
    rw [p.decimal.text_of_unsigned p.unsigned]
    exact p.decimal.body_ne_nil
  rw [text, List.append_assoc, sumCompact?_append total rest (fun _ => p.isAmountChar_of_mem) hne
    hletters hunit.ne_nil hrest, compactUnit?_of_mem _ p.known]
  simp only [lift_some, pure_bind]
  rw [p.scale?_bind_eq_pure, Reading.within128_bind_eq_pure]

/-- The pairs are added up as long as the word holds what comes out. -/
theorem sumCompact?_flatMap (pairs : List CompactPair) (htotal : InWord total) :
    sumCompact? total (pairs.flatMap text) = pure n ↔
      ((∀ p ∈ pairs, p.decimal.FitsIn p.perUnit) ∧ SumsFit total (pairs.map nanos)) ∧
        n = total + (pairs.map nanos).sum := by
  induction pairs generalizing total with
  | nil =>
    rw [List.flatMap_nil, sumCompact?, List.map_nil, sumsFit_nil]
    simp only [List.not_mem_nil, false_implies, implies_true, true_and, List.sum_nil, Int.add_zero]
    rw [and_iff_right htotal, Reading.pure_eq_iff]
  | cons p rest ih =>
    rw [List.flatMap_cons, p.sumCompact?_text (startsPair_flatMap rest), List.map_cons,
      sumsFit_cons, List.forall_mem_cons, List.sum_cons, ← Int.add_assoc]
    constructor
    · rintro ⟨hfits, hword, hread⟩
      obtain ⟨⟨hproducts, hsums⟩, hn⟩ := (ih hword).mp hread
      exact ⟨⟨⟨hfits, hproducts⟩, htotal, hsums⟩, hn⟩
    · rintro ⟨⟨⟨hfits, hproducts⟩, -, hsums⟩, hn⟩
      have hword := hsums.inWord_start
      exact ⟨hfits, hword, (ih hword).mpr ⟨⟨hproducts, hsums⟩, hn⟩⟩

/-- Whatever is read is written in pairs. -/
theorem exists_flatMap {cs : List Char} (h : sumCompact? total cs = pure n) :
    ∃ pairs : List CompactPair, pairs.flatMap text = cs := by
  fun_induction sumCompact? total cs with
  | case1 => exact ⟨[], rfl⟩
  | case2 total c rest hc ih =>
    obtain ⟨amount, hamount, h⟩ := Reading.lift_bind_eq_pure.mp h
    obtain ⟨perUnit, hunit, h⟩ := Reading.lift_bind_eq_pure.mp h
    have hknown := mem_of_compactUnit? hunit
    obtain ⟨added, -, h⟩ := Reading.bind_eq_pure.mp h
    obtain ⟨-, h⟩ := Reading.within128_bind_eq_pure.mp h
    obtain ⟨pairs, hpairs⟩ := ih _ h
    obtain ⟨d, hd⟩ := SignedDecimal.exists_text hamount
    have hunsigned : d.sign = .absent := by
      apply d.unsigned_of_forall
      intro e he
      rw [hd] at he
      rcases List.mem_cons.mp he with rfl | he
      · exact hc
      · exact List.mem_takeWhile_imp he
    refine ⟨⟨d, hunsigned, _, perUnit, hknown⟩ :: pairs, ?_⟩
    rw [List.flatMap_cons, hpairs, text, hd, String.toList_ofList, behindPair, List.append_assoc,
      List.takeWhile_append_dropWhile, List.cons_append, List.takeWhile_append_dropWhile]
  | case3 => exact absurd h (Reading.failure_ne_pure n)

end CompactPair

/-! ### Reading literals -/

namespace CompactLiteral

variable (l : CompactLiteral) {cs : List Char} {n : Int}

theorem body_ne_nil : l.pairs.flatMap CompactPair.text ≠ [] := by
  obtain ⟨p, rest, hpairs⟩ := List.exists_cons_of_ne_nil l.ne_nil
  rw [hpairs, List.flatMap_cons, CompactPair.text]
  simp [p.isCompactUnit.ne_nil]

theorem splitSign_text :
    splitSign l.text = (decide (l.sign = .minus), l.pairs.flatMap CompactPair.text) := by
  apply Duration.splitSign_text
  rintro -
  obtain ⟨first, rest, hbody⟩ := List.exists_cons_of_ne_nil l.body_ne_nil
  have hamount : isAmountChar first = true :=
    CompactPair.startsPair_flatMap l.pairs first (by rw [hbody]; rfl)
  have hfirst : first ≠ '+' ∧ first ≠ '-' := by
    constructor <;>
    · rintro rfl
      exact absurd hamount (by decide)
  rw [hbody]
  simpa [NoLeadingSign] using hfirst

theorem readCompact?_text : readCompact? l.text = pure n ↔ l.Fits ∧ n = l.nanos := by
  have hword : InWord 0 := by decide
  have hsum (m : Int) := CompactPair.sumCompact?_flatMap (n := m) l.pairs hword
  have hquiet := quiet_sumCompact? (Int.le_refl 0) (l.pairs.flatMap CompactPair.text)
  unfold readCompact?
  rw [l.splitSign_text]
  dsimp only
  rw [if_neg (by simpa using l.body_ne_nil), Reading.bind_eq_pure]
  have hsign (hnonneg : 0 ≤ l.total) :
      (if decide (l.sign = .minus) then negate l.total else pure l.total) = pure l.nanos := by
    have hmin : l.total ≠ minInt128 := by
      unfold minInt128
      omega
    unfold nanos
    cases l.sign <;> simp [negate_of_ne hmin]
  constructor
  · rintro ⟨m, hread, hn⟩
    obtain ⟨⟨hproducts, hsums⟩, hm⟩ := (hsum m).mp hread
    have hm : m = l.total := hm.trans (Int.zero_add _)
    have hnonneg : 0 ≤ l.total := hm ▸ hquiet.of_eq_pure hread
    rw [hm] at hn
    exact ⟨⟨hproducts, hsums⟩, (Reading.pure_inj ((hsign hnonneg).symm.trans hn)).symm⟩
  · rintro ⟨⟨hproducts, hsums⟩, rfl⟩
    have hread := (hsum l.total).mpr ⟨⟨hproducts, hsums⟩, (Int.zero_add _).symm⟩
    exact ⟨l.total, hread, hsign (hquiet.of_eq_pure hread)⟩

/-- Whatever is read is a literal. -/
theorem exists_text (h : readCompact? cs = pure n) : ∃ l : CompactLiteral, l.text = cs := by
  obtain ⟨sign, body, rfl, hsign⟩ := exists_sign cs
  unfold readCompact? at h
  rw [Duration.splitSign_text hsign] at h
  dsimp only at h
  split at h
  · exact absurd h (Reading.failure_ne_pure n)
  · next hbody =>
    obtain ⟨m, hread, -⟩ := Reading.bind_eq_pure.mp h
    obtain ⟨pairs, rfl⟩ := CompactPair.exists_flatMap hread
    refine ⟨⟨sign, pairs, ?_⟩, rfl⟩
    rintro rfl
    exact hbody rfl

theorem readCompact?_eq_pure_iff :
    readCompact? cs = pure n ↔ ∃ l : CompactLiteral, l.text = cs ∧ l.Fits ∧ n = l.nanos := by
  constructor
  · intro h
    obtain ⟨l, rfl⟩ := exists_text h
    exact ⟨l, rfl, l.readCompact?_text.mp h⟩
  · rintro ⟨l, rfl, h⟩
    exact l.readCompact?_text.mpr h

/-! ### No interval -/

theorem mem_text {c : Char} (hc : c ∈ l.text) : c = '+' ∨ c = '-' ∨ isAmountChar c = true ∨
    ∃ p ∈ l.pairs, c ∈ p.unit.toList := by
  rcases List.mem_append.mp hc with hsign | hbody
  · revert hsign
    cases l.sign <;> simp +contextual [Sign.text]
  · obtain ⟨p, hp, hc⟩ := List.mem_flatMap.mp hbody
    rcases List.mem_append.mp hc with hamount | hunit
    · exact .inr (.inr (.inl (p.isAmountChar_of_mem hamount)))
    · exact .inr (.inr (.inr ⟨p, hp, hunit⟩))

/-- The text is one word with a letter and without a colon. -/
theorem readInterval?_text : readInterval? l.text = failure := by
  obtain ⟨p, rest, hpairs⟩ := List.exists_cons_of_ne_nil l.ne_nil
  obtain ⟨c, unit, hunit⟩ := List.exists_cons_of_ne_nil p.isCompactUnit.ne_nil
  have hc : c ∈ p.unit.toList := hunit ▸ List.mem_cons_self
  have hmem : c ∈ l.text := by
    rw [text, hpairs, List.flatMap_cons, CompactPair.text]
    simp [hc]
  obtain ⟨hletter, -, -, hplus, hminus⟩ := p.isCompactUnit.letters c hc
  apply readInterval?_eq_none hmem hplus hminus hletter
  · intro d hd
    rcases l.mem_text hd with rfl | rfl | hamount | ⟨q, -, hq⟩
    · decide
    · decide
    · exact isBlank_of_isAmountChar hamount
    · exact (q.isCompactUnit.letters d hq).2.1
  · intro hcolon
    rcases l.mem_text hcolon with h | h | hamount | ⟨q, -, hq⟩
    · exact absurd h (by decide)
    · exact absurd h (by decide)
    · exact absurd hamount (by decide)
    · exact (q.isCompactUnit.letters ':' hq).2.2.1 rfl

end CompactLiteral

/-! ### The rounds of the loop -/

section Rounds

/-- One round of the loop: the pair in front is added, and the text behind it is left. -/
def compactRound? (total : Int) : List Char → Reading (Int × List Char)
  | [] => failure
  | c :: rest =>
    if isAmountChar c then do
      let amount ← readAmount? (c :: rest.takeWhile isAmountChar)
      let unit ← compactUnit? ((rest.dropWhile isAmountChar).takeWhile (!isAmountChar ·))
      let total ← within128 (total + (← amount.scale? unit))
      return (total, behindPair rest)
    else failure

/-- So many rounds lead from one state of the loop to another. -/
inductive Rounds : Int × List Char → Nat → Int × List Char → Prop
  | zero (state : Int × List Char) : Rounds state 0 state
  | succ {total : Int} {cs : List Char} {state last : Int × List Char} {n : Nat}
      (round : compactRound? total cs = pure state) (rest : Rounds state n last) :
      Rounds (total, cs) (n + 1) last

/-- A round that is not the last leaves less text. -/
theorem quiet_compactRound? (total : Int) (cs : List Char) :
    Quiet (·.2.length < cs.length) (compactRound? total cs) := by
  unfold compactRound?
  split
  · exact .failure
  · next c rest =>
    split
    · refine (Quiet.lift fun amount ha => ha).bind fun amount hamount => ?_
      refine (Quiet.lift fun unit hu => compactUnit?_nonneg hu).bind fun unit hunit => ?_
      refine (quiet_scale? hamount hunit).bind fun n _ => ?_
      exact (quiet_within128 _).bind fun sum _ => .pure (length_behindPair_lt c rest)
    · exact .failure

theorem sumCompact?_eq_round (total : Int) {cs : List Char} (hne : cs ≠ []) :
    sumCompact? total cs = compactRound? total cs >>= fun state => sumCompact? state.1 state.2 := by
  obtain ⟨c, rest, rfl⟩ := List.exists_cons_of_ne_nil hne
  rw [sumCompact?, compactRound?]
  by_cases hc : isAmountChar c = true
  · rw [if_pos hc, if_pos hc]
    simp only [bind_assoc, pure_bind]
  · rw [if_neg hc, if_neg hc]
    rfl

/-- The loop ends after at most as many rounds as there are characters. What it has added up is
the answer if no text is left. -/
theorem exists_rounds (total : Int) (cs : List Char) :
    ∃ n ≤ cs.length, ∃ last, Rounds (total, cs) n last ∧ compactRound? last.1 last.2 = failure ∧
      sumCompact? total cs = if last.2 = [] then pure last.1 else failure := by
  induction hlength : cs.length using Nat.strong_induction_on generalizing total cs with
  | h length ih =>
    subst hlength
    rcases quiet_compactRound? total cs with hend | ⟨⟨sum, rest⟩, hround, hlt⟩
    · refine ⟨0, Nat.zero_le _, (total, cs), .zero _, hend, ?_⟩
      by_cases hnil : cs = []
      · subst hnil
        rw [sumCompact?, if_pos rfl]
      · rw [sumCompact?_eq_round total hnil, hend, if_neg hnil]
        rfl
    · obtain ⟨n, hn, last, hrounds, hend, hsum⟩ := ih rest.length hlt sum rest rfl
      refine ⟨n + 1, Nat.lt_of_le_of_lt hn hlt, last, .succ hround hrounds, hend, ?_⟩
      rw [sumCompact?_eq_round total (List.ne_nil_of_length_pos (Nat.zero_lt_of_lt hlt)), hround,
        pure_bind]
      exact hsum

end Rounds

theorem length_splitSign_le (cs : List Char) : (splitSign cs).2.length ≤ cs.length := by
  unfold splitSign
  split <;> simp

/-- A text is read exactly if it is a compact literal whose products and sums the word holds, and as
its value, to which every pair adds what its decimal is scaled to. The loop ends on every text, with
a total if it has come to the end of the text. No text is read in both notations, so that their
order is of no account. -/
theorem compact_literal_iff (cs : List Char) :
    (∀ n, readCompact? cs = pure n ↔ ∃ l : CompactLiteral, l.text = cs ∧ l.Fits ∧ n = l.nanos) ∧
      ((∃ l : CompactLiteral, l.text = cs ∧ l.Fits) ∨ readCompact? cs = failure) ∧
      (∀ (p : CompactPair) n, (do (← readAmount? p.decimal.text).scale? p.perUnit : Reading Int) =
        pure n ↔ p.decimal.FitsIn p.perUnit ∧ n = p.nanos) ∧
      (∃ n ≤ cs.length, ∃ total rest, Rounds (0, (splitSign cs).2) n (total, rest) ∧
        compactRound? total rest = failure ∧
        sumCompact? 0 (splitSign cs).2 = if rest = [] then pure total else failure) ∧
      (readCompact? cs = failure ∨ readInterval? cs = failure) ∧
      (readInterval? cs <|> readCompact? cs) = (readCompact? cs <|> readInterval? cs) := by
  have hread {n : Int} := @CompactLiteral.readCompact?_eq_pure_iff cs n
  have hapart : readCompact? cs = failure ∨ readInterval? cs = failure := by
    rcases quiet_readCompact? cs with hnone | ⟨n, hn, -⟩
    · exact .inl hnone
    · obtain ⟨l, rfl, -⟩ := hread.mp hn
      exact .inr l.readInterval?_text
  refine ⟨fun n => hread, ?_, fun p n => p.scale?_eq_pure_iff, ?_, hapart,
    Reading.orElse_comm hapart.symm⟩
  · rcases quiet_readCompact? cs with hnone | ⟨n, hn, -⟩
    · exact .inr hnone
    · obtain ⟨l, htext, hfits, -⟩ := hread.mp hn
      exact .inl ⟨l, htext, hfits⟩
  · obtain ⟨n, hn, ⟨total, rest⟩, hloop⟩ := exists_rounds 0 (splitSign cs).2
    exact ⟨n, Nat.le_trans hn (length_splitSign_le cs), total, rest, hloop⟩

end TenantSchema.Duration
