import TenantSchema.Proofs.IntegerText
import TenantSchema.Proofs.WireRoundTrip

/-!
# One integer in many forms

A number can be given as a native integer, in a box, on the wire or as text. An integer type makes
the same of it in each of these forms: they are brought to one wide number before it is compared with
the bounds, and the error of a bound shows that number.
-/

namespace TenantSchema

open TenantSchema.Number

/-! ### Forms of a number -/

/-- The number that a native integer is, whatever its width. -/
def Native.integer? : Native → Option Int
  | .int8 n => some n.toInt
  | .int16 n => some n.toInt
  | .int32 n => some n.toInt
  | .int64 n => some n.toInt
  | .uint8 n => some n.toNat
  | .uint16 n => some n.toNat
  | .uint32 n => some n.toNat
  | .uint64 n => some n.toNat
  | _ => none

def Wrapper.integer? : Wrapper → Option Int
  | .int32 n => some n.toInt
  | .int64 n => some n.toInt
  | .uint32 n => some n.toNat
  | .uint64 n => some n.toNat
  | _ => none

/-- The text of a source that is text, in whatever form. -/
def Source.text? : Source → Option String
  | .value (.text s) => some s
  | .wire (.string s) => some s
  | .wrapper (.string s) => some s
  | _ => none

/-- The text is a sign, if any, and digits for the number, leading zeros included, with blanks around
them or not. -/
def Number.Writes (text : String) (n : Int) : Prop :=
  ∃ front literal back, text.toList = front ++ (literal ++ back) ∧
    (∀ c ∈ front, Text.isBlank c = true) ∧ (∀ c ∈ back, Text.isBlank c = true) ∧
    IsLiteral literal n

/-- The source is the number in one of its forms. -/
inductive Source.Denotes : Source → Int → Prop where
  | native {k : Native} {n : Int} (h : k.integer? = some n) : Denotes k.toSource n
  | wrapper {b : Wrapper} {n : Int} (h : b.integer? = some n) : Denotes (.wrapper b) n
  | wire (k : WireInt) : Denotes (.wire (.int k)) k.val
  | text {source : Source} {s : String} {n : Int} (hs : source.text? = some s)
      (h : Writes s n) : Denotes source n

/-! ### One wide number -/

section Wide

variable {kind : Kind} {below above : String → TypeError} {n : Int}

/-- No character of a literal is a blank. -/
theorem Number.IsLiteral.isBlank_eq_false {literal : List Char} (h : IsLiteral literal n) :
    ∀ c ∈ literal, Text.isBlank c = false := by
  obtain ⟨sign, digits, rfl, hdigits, -⟩ := h
  intro c hc
  refine isBlank_of_isNumeral ?_
  rcases List.mem_append.mp hc with hc | hc
  · cases sign with
    | absent => cases hc
    | plus =>
      rw [List.mem_singleton.mp hc]
      decide
    | minus =>
      rw [List.mem_singleton.mp hc]
      decide
  · rw [isNumeral, hdigits.digits c hc, Bool.true_or]

theorem Number.Writes.trim {text : String} (h : Writes text n) :
    IsLiteral (Text.trim text).toList n := by
  obtain ⟨front, literal, back, htext, hfront, hback, hliteral⟩ := h
  rw [Text.toList_trim, htext, Text.trimChars_padded hfront hback,
    Text.trimChars_of_forall hliteral.isBlank_eq_false]
  exact hliteral

theorem Source.input_of_text? {source : Source} {s : String} (h : source.text? = some s) :
    source.input = .value (.text s) := by
  unfold text? at h
  split at h
  · cases h
    rfl
  · cases h
    rfl
  · cases h
    rfl
  · cases h

/-- A native integer widens without a change. -/
theorem wideInteger_native {k : Native} (h : k.integer? = some n) :
    wideInteger kind below above k.toSource.input = .ok (some n) := by
  cases k with
  | int8 m =>
    cases h
    exact congrArg (Except.ok ∘ some) m.toInt_toInt64
  | int16 m =>
    cases h
    exact congrArg (Except.ok ∘ some) m.toInt_toInt64
  | int32 m =>
    cases h
    exact congrArg (Except.ok ∘ some) m.toInt_toInt64
  | uint8 m =>
    cases h
    exact congrArg (Except.ok ∘ some ∘ Nat.cast) m.toNat_toUInt64
  | uint16 m =>
    cases h
    exact congrArg (Except.ok ∘ some ∘ Nat.cast) m.toNat_toUInt64
  | uint32 m =>
    cases h
    exact congrArg (Except.ok ∘ some ∘ Nat.cast) m.toNat_toUInt64
  | int64 m | uint64 m =>
    cases h
    rfl
  | _ => cases h

theorem wideInteger_wrapper {b : Wrapper} (h : b.integer? = some n) :
    wideInteger kind below above (Source.wrapper b).input = .ok (some n) := by
  cases b with
  | int32 m =>
    cases h
    exact congrArg (Except.ok ∘ some) m.toInt_toInt64
  | uint32 m =>
    cases h
    exact congrArg (Except.ok ∘ some ∘ Nat.cast) m.toNat_toUInt64
  | int64 m | uint64 m =>
    cases h
    rfl
  | _ => cases h

/-- Text is read as its number as far as the 128 bits go. -/
theorem wideInteger_text {text : String} (h : Writes text n) (hmin : minInt128 ≤ n)
    (hmax : n ≤ maxInt128) : wideInteger kind below above (.value (.text text)) = .ok (some n) := by
  have hliteral := h.trim
  have hnonblank : Text.nonBlank? text = some (Text.trim text) := by
    refine Text.nonBlank?_eq_some ?_
    rw [← Text.toList_trim]
    exact IntegerType.ne_nil_of_isLiteral hliteral
  have hread : readInteger minInt128 maxInt128 (Text.trim text).toList = .value n :=
    (readInteger_eq_value_iff (by decide) (by decide)).mpr ⟨hliteral, hmin, hmax⟩
  unfold wideInteger
  dsimp only
  rw [hnonblank]
  dsimp only
  rw [hread]

theorem Source.Denotes.wideInteger_eq {source : Source} (h : source.Denotes n)
    (hmin : minInt128 ≤ n) (hmax : n ≤ maxInt128) :
    wideInteger kind below above source.input = .ok (some n) := by
  cases h with
  | native h => exact wideInteger_native h
  | wrapper h => exact wideInteger_wrapper h
  | wire k => exact wideInteger_ofWire kind below above k
  | text hs h =>
    rw [Source.input_of_text? hs]
    exact wideInteger_text h hmin hmax

end Wide

/-! ### One outcome -/

/-- Any two forms of a number that a signed or an unsigned 64-bit word holds decode alike, by an
integer type of either family, any width and any bounds: into the number, or the violation of the
bound that it lies beyond. No dictionary is asked for. -/
theorem integer_forms_decode_alike (t : IntegerType) {n : Int} (hmin : minInt64 ≤ n)
    (hmax : n ≤ maxUInt64) {source source' : Source} (h : source.Denotes n)
    (h' : source'.Denotes n) {τ : Type} [DictionarySource τ] (w : World τ) :
    (t.type.decode source : Decoding τ Value).run w = (t.type.decode source').run w ∧
      (t.type.decode source : Decoding τ Value).run w = (t.accept n, w) := by
  have hlow : minInt128 ≤ n := Int.le_trans (by decide) hmin
  have hhigh : n ≤ maxInt128 := Int.le_trans hmax (by decide)
  have hrun {source : Source} (h : source.Denotes n) :
      (t.type.decode source : Decoding τ Value).run w = (t.accept n, w) := by
    rw [t.decode_run source w, h.wideInteger_eq hlow hhigh]
    rfl
  exact ⟨(hrun h).trans (hrun h').symm, hrun h⟩

/-- The greatest unsigned number, boxed and as padded text, is too much for a signed word. -/
theorem greatest_word_decodes_alike :
    let long : IntegerType := .signed .int64 64 none
    let padded : Source := .value (.text "\t+0018446744073709551615 ")
    Source.Denotes (.wrapper (.uint64 0xFFFFFFFFFFFFFFFF)) maxUInt64 ∧
      padded.Denotes maxUInt64 ∧
      (long.type.decode padded).run noDictionaries =
        (.error (long.above "18446744073709551615"), noDictionaries) ∧
      (long.type.decode (.wrapper (.uint64 0xFFFFFFFFFFFFFFFF))).run noDictionaries =
        (long.type.decode padded).run noDictionaries := by
  have hboxed : Source.Denotes (.wrapper (.uint64 0xFFFFFFFFFFFFFFFF)) maxUInt64 :=
    .wrapper (by decide)
  have hdigits : "0018446744073709551615".toList.all Char.isDigit = true := by decide +kernel
  have hliteral : IsLiteral "+0018446744073709551615".toList maxUInt64 :=
    ⟨.plus, "0018446744073709551615".toList, by decide +kernel,
      ⟨by decide, List.all_eq_true.mp hdigits⟩, by decide +kernel⟩
  have hblank {c : Char} (hc : Text.isBlank c = true) : ∀ b ∈ [c], Text.isBlank b = true :=
    List.forall_mem_singleton.mpr hc
  have hpadded : Source.Denotes (.value (.text "\t+0018446744073709551615 ")) maxUInt64 :=
    .text rfl ⟨['\t'], _, [' '], by decide +kernel, hblank (by decide), hblank (by decide),
      hliteral⟩
  have hmin : minInt64 ≤ maxUInt64 := by decide
  have hmax : maxUInt64 ≤ maxUInt64 := Int.le_refl _
  obtain ⟨hsame, hout⟩ := integer_forms_decode_alike (.signed .int64 64 none) hmin hmax hpadded
    hboxed noDictionaries
  exact ⟨hboxed, hpadded, hout.trans (by rfl), hsame.symm⟩

end TenantSchema
