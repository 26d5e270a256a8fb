import Mathlib.Data.List.DropRight
import TenantSchema.Number.FloatText
import TenantSchema.Text.Blank

/-!
# Text that is trimmed

Trimming twice is trimming once, and a number is written without blanks, so that trimming leaves its
text alone.
-/

namespace TenantSchema

/-! ### Trimming -/

namespace Text

theorem trimChars_eq (cs : List Char) :
    trimChars cs = (cs.dropWhile isBlank).rdropWhile isBlank := rfl

theorem trimChars_trimChars (cs : List Char) : trimChars (trimChars cs) = trimChars cs := by
  -- a blank at the front of what is left was at the front before the end was cut
  have hfront : (trimChars cs).dropWhile isBlank = trimChars cs := by
    rw [List.dropWhile_eq_self_iff]
    intro hpos hblank
    have hpre : trimChars cs <+: cs.dropWhile isBlank := List.rdropWhile_prefix isBlank _
    have hne : 0 < (cs.dropWhile isBlank).length := Nat.lt_of_lt_of_le hpos hpre.length_le
    have hhead : (trimChars cs)[0] = (cs.dropWhile isBlank)[0] := hpre.getElem hpos
    exact List.dropWhile_get_zero_not isBlank cs hne (by simpa [hhead] using hblank)
  rw [trimChars_eq (trimChars cs), hfront, trimChars_eq, List.rdropWhile_idempotent]

theorem trimChars_of_forall {cs : List Char} (h : ∀ c ∈ cs, isBlank c = false) :
    trimChars cs = cs := by
  have hfront : cs.dropWhile isBlank = cs := by
    rw [List.dropWhile_eq_self_iff]
    intro hpos
    simp [h _ (List.getElem_mem hpos)]
  rw [trimChars_eq, hfront, List.rdropWhile_eq_self_iff]
  intro hne
  simp [h _ (List.getLast_mem hne)]

/-- More blanks around a text change nothing once it is trimmed. -/
theorem trimChars_padded {front back : List Char} (hfront : ∀ c ∈ front, isBlank c = true)
    (hback : ∀ c ∈ back, isBlank c = true) (cs : List Char) :
    trimChars (front ++ (cs ++ back)) = trimChars cs := by
  have hend (cs : List Char) : (cs ++ back).rdropWhile isBlank = cs.rdropWhile isBlank := by
    unfold List.rdropWhile
    rw [List.reverse_append, List.dropWhile_append_of_pos fun c hc => hback c (List.mem_reverse.mp hc)]
  rw [trimChars_eq, trimChars_eq, List.dropWhile_append_of_pos hfront, List.dropWhile_append]
  split
  · next hall =>
    rw [List.dropWhile_eq_nil_iff.mpr hback, List.isEmpty_iff.mp hall]
  · exact hend _

/-- Trimming leaves the text as it is. -/
def IsTrimmed (s : String) : Prop := trim s = s

theorem isTrimmed_trim (s : String) : IsTrimmed (trim s) := by
  unfold IsTrimmed trim
  rw [String.toList_ofList, trimChars_trimChars]

theorem isTrimmed_ofList {cs : List Char} (h : ∀ c ∈ cs, isBlank c = false) :
    IsTrimmed (String.ofList cs) := by
  unfold IsTrimmed trim
  rw [String.toList_ofList, trimChars_of_forall h]

theorem eq_trim_of_nonBlank? {s t : String} (h : nonBlank? s = some t) : t = trim s := by
  unfold nonBlank? at h
  unfold trim
  split at h
  · cases h
  · cases h
    rfl

/-- The text in which something is found is trimmed. -/
theorem isTrimmed_of_nonBlank? {s t : String} (h : nonBlank? s = some t) : IsTrimmed t := by
  rw [eq_trim_of_nonBlank? h]
  exact isTrimmed_trim s

theorem nonBlank?_empty : nonBlank? "" = none := rfl

@[simp] theorem toList_trim (s : String) : (trim s).toList = trimChars s.toList :=
  String.toList_ofList

/-- Trimming leaves nothing of blanks alone. -/
theorem trimChars_eq_nil_iff {cs : List Char} : trimChars cs = [] ↔ ∀ c ∈ cs, isBlank c = true := by
  rw [trimChars_eq, List.rdropWhile_eq_nil_iff]
  constructor
  · intro hback
    -- whatever the cut at the front has left would begin with a character that is no blank
    have hfront : cs.dropWhile isBlank = [] := by
      by_contra hne
      have hpos := List.length_pos_iff.mpr hne
      exact List.dropWhile_get_zero_not isBlank cs hpos (hback _ (List.getElem_mem hpos))
    exact List.dropWhile_eq_nil_iff.mp hfront
  · intro hall c hc
    exact hall c ((List.dropWhile_suffix isBlank).subset hc)

theorem nonBlank?_eq_none {s : String} (h : trimChars s.toList = []) : nonBlank? s = none := by
  unfold nonBlank?
  rw [h]

theorem nonBlank?_eq_some {s : String} (h : trimChars s.toList ≠ []) :
    nonBlank? s = some (trim s) := by
  unfold nonBlank? trim
  split
  · contradiction
  · rfl

theorem nonBlank?_trim (s : String) : nonBlank? (trim s) = nonBlank? s := by
  unfold nonBlank?
  rw [toList_trim, trimChars_trimChars]

theorem nonBlank?_of_isTrimmed {s : String} (ht : IsTrimmed s) (hne : s ≠ "") :
    nonBlank? s = some s := by
  have hsome : trimChars s.toList ≠ [] := by
    intro hnil
    have hempty : trim s = "" := by rw [trim, hnil, String.ofList_nil]
    exact hne (ht.symm.trans hempty)
  rw [nonBlank?_eq_some hsome, ht]

end Text

/-! ### Numbers -/

namespace Number

open Text

/-- The characters that numbers are written with. -/
def isNumeral (c : Char) : Bool := c.isDigit || ['-', '+', '.', 'e', 'i', 'n', 'f', 'N', 'a'].contains c

theorem isBlank_of_isNumeral {c : Char} (h : isNumeral c = true) : isBlank c = false := by
  have hrange : 0x21 ≤ c.toNat ∧ c.toNat ≤ 0x7E := by
    rcases (Bool.or_eq_true _ _).mp h with hdigit | hother
    · have hd := Char.isDigit_iff_toNat.mp hdigit
      simp at hd
      omega
    · simp at hother
      rcases hother with rfl | rfl | rfl | rfl | rfl | rfl | rfl | rfl | rfl <;> decide
  rw [isBlank, Bool.eq_false_iff]
  intro hblank
  obtain ⟨r, hr, hlow, hhigh⟩ := inRanges_iff.mp hblank
  simp [blankRanges] at hr
  rcases hr with rfl | rfl | rfl | rfl | rfl | rfl | rfl | rfl | rfl | rfl <;> simp at hlow hhigh <;>
    omega

theorem toDigits_numerals (n : Nat) : (Nat.toDigits 10 n).all isNumeral = true := by
  rw [List.all_eq_true]
  intro c hc
  unfold isNumeral
  rw [Nat.isDigit_of_mem_toDigits (by decide) (by decide) hc, Bool.true_or]

theorem intDigits_numerals (n : Int) : (intDigits n).all isNumeral = true := by
  unfold intDigits
  split
  · rw [List.all_cons, toDigits_numerals]
    rfl
  · exact toDigits_numerals _

theorem replicate_numerals (n : Nat) : (List.replicate n '0').all isNumeral = true := by
  rw [List.all_eq_true]
  intro c hc
  rw [List.eq_of_mem_replicate hc]
  rfl

section Digits

variable {digits : List Char} (h : digits.all isNumeral = true)

include h

theorem take_numerals (n : Nat) : (digits.take n).all isNumeral = true :=
  List.all_eq_true.mpr fun c hc => List.all_eq_true.mp h c (List.mem_of_mem_take hc)

theorem drop_numerals (n : Nat) : (digits.drop n).all isNumeral = true :=
  List.all_eq_true.mpr fun c hc => List.all_eq_true.mp h c (List.mem_of_mem_drop hc)

theorem positionalDigits_numerals (keepsPoint : Bool) (point : Int) :
    (positionalDigits keepsPoint digits point).all isNumeral = true := by
  unfold positionalDigits
  split
  · rw [List.all_append, List.all_append, replicate_numerals, h]
    rfl
  · split
    · rw [List.all_append, List.all_append, replicate_numerals, h]
      cases keepsPoint <;> rfl
    · rw [List.all_append, List.all_cons, take_numerals h, drop_numerals h]
      rfl

theorem scientificDigits_numerals (exponent : Int) :
    (scientificDigits digits exponent).all isNumeral = true := by
  have hfraction : (if (digits.drop 1).isEmpty then [] else '.' :: digits.drop 1).all isNumeral =
      true := by
    split
    · rfl
    · rw [List.all_cons, drop_numerals h]
      rfl
  have hsign : (if exponent < 0 then [] else ['+']).all isNumeral = true := by split <;> rfl
  unfold scientificDigits
  dsimp only
  rw [List.all_append, List.all_append, List.all_cons, List.all_append, take_numerals h, hfraction,
    hsign, intDigits_numerals]
  rfl

end Digits

theorem FloatNotation.digits_numerals (f : FloatNotation) (x : Binary64) :
    (f.digits x).all isNumeral = true := by
  have hsign : (if x.isNegative then ['-'] else []).all isNumeral = true := by split <;> rfl
  unfold FloatNotation.digits
  dsimp only
  split
  · rfl
  · split
    · rw [List.all_append, hsign]
      rfl
    · split
      · rw [List.all_append, hsign]
        cases f.keepsPoint <;> rfl
      · rw [List.all_append, hsign, Bool.true_and]
        split
        · exact positionalDigits_numerals (toDigits_numerals _) _ _
        · exact scientificDigits_numerals (toDigits_numerals _) _

/-! Something is always written. -/

theorem intDigits_ne_nil (n : Int) : intDigits n ≠ [] := by
  unfold intDigits
  split
  · exact List.cons_ne_nil _ _
  · exact Nat.toDigits_ne_nil

theorem FloatNotation.digits_ne_nil (f : FloatNotation) (x : Binary64) : f.digits x ≠ [] := by
  unfold FloatNotation.digits
  dsimp only
  split
  · exact List.cons_ne_nil _ _
  · split
    · exact List.append_ne_nil_of_right_ne_nil _ (List.cons_ne_nil _ _)
    · split
      · exact List.append_ne_nil_of_right_ne_nil _ (List.cons_ne_nil _ _)
      · refine List.append_ne_nil_of_right_ne_nil _ ?_
        split
        · unfold positionalDigits
          split
          · simp
          · split <;> simp [Nat.toDigits_ne_nil]
        · simp [scientificDigits]

theorem ofList_ne_empty {cs : List Char} (h : cs ≠ []) : String.ofList cs ≠ "" := by
  simpa using h

theorem isTrimmed_of_numerals {cs : List Char} (h : cs.all isNumeral = true) :
    IsTrimmed (String.ofList cs) :=
  isTrimmed_ofList fun c hc => isBlank_of_isNumeral (List.all_eq_true.mp h c hc)

theorem isTrimmed_intText (n : Int) : IsTrimmed (intText n) :=
  isTrimmed_of_numerals (intDigits_numerals n)

theorem isTrimmed_natText (n : Nat) : IsTrimmed (natText n) :=
  isTrimmed_of_numerals (toDigits_numerals n)

theorem nonBlank?_intText (n : Int) : nonBlank? (intText n) = some (intText n) :=
  nonBlank?_of_isTrimmed (isTrimmed_intText n) (ofList_ne_empty (intDigits_ne_nil n))

theorem isTrimmed_floatText (x : Binary64) : IsTrimmed (floatText x) :=
  isTrimmed_of_numerals (plainNotation.digits_numerals x)

theorem isTrimmed_wireFloatText (x : Binary64) : IsTrimmed (wireFloatText x) :=
  isTrimmed_of_numerals (wireNotation.digits_numerals x)

theorem nonBlank?_floatText (x : Binary64) : nonBlank? (floatText x) = some (floatText x) :=
  nonBlank?_of_isTrimmed (isTrimmed_floatText x) (ofList_ne_empty (plainNotation.digits_ne_nil x))

theorem nonBlank?_wireFloatText (x : Binary64) :
    nonBlank? (wireFloatText x) = some (wireFloatText x) :=
  nonBlank?_of_isTrimmed (isTrimmed_wireFloatText x)
    (ofList_ne_empty (wireNotation.digits_ne_nil x))

end Number

end TenantSchema
