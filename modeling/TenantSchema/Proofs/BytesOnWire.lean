import TenantSchema.Proofs.DecodeSteps
import TenantSchema.Proofs.DecodedValues
import TenantSchema.Proofs.Redecoding
import TenantSchema.Proofs.TrimmedText
import TenantSchema.Value.ToWire

/-!
# Bytes on the wire

Base-64 text is read back as the bytes it was made of, and has no blanks that trimming could take
away. It is blank for no bytes at all, and there the wire form means null.
-/

namespace TenantSchema

/-! ### Base-64 text -/

namespace Text.Base64

theorem digit?_digitChar {n : Nat} (h : n < 64) : digit? (digitChar n) = some n := by
  have hall : ∀ n : Fin 64, digit? (digitChar n) = some n.val := by decide
  exact hall ⟨n, h⟩

/-- Padding is no digit. -/
theorem digitChar_ne_pad {n : Nat} (h : n < 64) : digitChar n ≠ '=' := by
  intro hpad
  have hdigit := digit?_digitChar h
  rw [hpad] at hdigit
  cases hdigit

theorem isBlank_digitChar {n : Nat} (h : n < 64) : isBlank (digitChar n) = false := by
  have hall : ∀ n : Fin 64, isBlank (digitChar n) = false := by decide
  exact hall ⟨n, h⟩

/-- Three bytes in four digits. -/
theorem decode?_group {p q r s : Nat} (hp : p < 64) (hq : q < 64) (hr : r < 64) (hs : s < 64)
    (rest : List Char) :
    decode? (digitChar p :: digitChar q :: digitChar r :: digitChar s :: rest) =
      (decode? rest).map fun more => UInt8.ofNat (p * 4 + q / 16) ::
        UInt8.ofNat (q % 16 * 16 + r / 4) :: UInt8.ofNat (r % 4 * 64 + s) :: more := by
  rw [decode?.eq_4 _ _ _ _ _ (fun hpad => absurd hpad (digitChar_ne_pad hr))
    fun hpad => absurd hpad (digitChar_ne_pad hs), digit?_digitChar hp, digit?_digitChar hq,
    digit?_digitChar hr, digit?_digitChar hs]
  cases decode? rest <;> rfl

/-- What is encoded is read back. -/
theorem decode?_encode (bytes : List UInt8) : decode? (encode bytes) = some bytes := by
  fun_induction encode bytes with
  | case1 => rfl
  | case2 a =>
    have ha := a.toNat_lt
    have hfirst : a.toNat / 4 * 4 + a.toNat % 4 * 16 / 16 = a.toNat := by omega
    have hstray : a.toNat % 4 * 16 % 16 = 0 := by omega
    rw [decode?.eq_2, digit?_digitChar (by omega), digit?_digitChar (by omega)]
    show (if a.toNat % 4 * 16 % 16 = 0 then _ else _) = _
    rw [if_pos hstray, hfirst, UInt8.ofNat_toNat]
  | case3 a b =>
    have ha := a.toNat_lt
    have hb := b.toNat_lt
    have hfirst : a.toNat / 4 * 4 + (a.toNat % 4 * 16 + b.toNat / 16) / 16 = a.toNat := by omega
    have hsecond : (a.toNat % 4 * 16 + b.toNat / 16) % 16 * 16 + b.toNat % 16 * 4 / 4 =
        b.toNat := by omega
    have hstray : b.toNat % 16 * 4 % 4 = 0 := by omega
    have hr : b.toNat % 16 * 4 < 64 := by omega
    rw [decode?.eq_3 _ _ _ fun hpad => absurd hpad (digitChar_ne_pad hr),
      digit?_digitChar (by omega), digit?_digitChar (by omega), digit?_digitChar hr]
    show (if b.toNat % 16 * 4 % 4 = 0 then _ else _) = _
    rw [if_pos hstray, hfirst, hsecond, UInt8.ofNat_toNat, UInt8.ofNat_toNat]
  | case4 a b c rest ih =>
    have ha := a.toNat_lt
    have hb := b.toNat_lt
    have hc := c.toNat_lt
    have hfirst : a.toNat / 4 * 4 + (a.toNat % 4 * 16 + b.toNat / 16) / 16 = a.toNat := by omega
    have hsecond : (a.toNat % 4 * 16 + b.toNat / 16) % 16 * 16 +
        (b.toNat % 16 * 4 + c.toNat / 64) / 4 = b.toNat := by omega
    have hthird : (b.toNat % 16 * 4 + c.toNat / 64) % 4 * 64 + c.toNat % 64 = c.toNat := by omega
    show decode? (_ :: _ :: _ :: _ :: encode rest) = _
    rw [decode?_group (by omega) (by omega) (by omega) (by omega), ih, hfirst, hsecond, hthird]
    simp

/-- Only digits and padding are written. -/
theorem exists_digit_of_mem_encode {bytes : List UInt8} {c : Char} (hc : c ∈ encode bytes) :
    c = '=' ∨ ∃ n < 64, c = digitChar n := by
  fun_induction encode bytes with
  | case1 => cases hc
  | case2 a =>
    have ha := a.toNat_lt
    simp at hc
    rcases hc with rfl | rfl | rfl
    · exact .inr ⟨_, by omega, rfl⟩
    · exact .inr ⟨_, by omega, rfl⟩
    · exact .inl rfl
  | case3 a b =>
    have ha := a.toNat_lt
    have hb := b.toNat_lt
    simp at hc
    rcases hc with rfl | rfl | rfl | rfl
    · exact .inr ⟨_, by omega, rfl⟩
    · exact .inr ⟨_, by omega, rfl⟩
    · exact .inr ⟨_, by omega, rfl⟩
    · exact .inl rfl
  | case4 a b c rest ih =>
    have ha := a.toNat_lt
    have hb := b.toNat_lt
    have hc' := c.toNat_lt
    rcases List.mem_append.mp hc with hgroup | hrest
    · simp at hgroup
      rcases hgroup with rfl | rfl | rfl | rfl
      all_goals exact .inr ⟨_, by omega, rfl⟩
    · exact ih hrest

theorem isBlank_of_mem_encode {bytes : List UInt8} {c : Char} (hc : c ∈ encode bytes) :
    isBlank c = false := by
  rcases exists_digit_of_mem_encode hc with rfl | ⟨n, hn, rfl⟩
  · decide
  · exact isBlank_digitChar hn

theorem encode_eq_nil {bytes : List UInt8} : encode bytes = [] ↔ bytes = [] := by
  fun_cases encode bytes <;> simp

end Text.Base64

/-! ### Bytes -/

/-- The wire form of bytes is read as these bytes, and that of no bytes as null. -/
theorem BinaryType.bytes_toWire (content : List UInt8) :
    bytes (.ofWire (Value.binary content).toWire) =
      .ok (if content = [] then none else some content) := by
  have htext : Input.ofWire (Value.binary content).toWire =
      .value (.text (String.ofList (Text.Base64.encode content))) := rfl
  have hchars : (String.ofList (Text.Base64.encode content)).toList = Text.Base64.encode content :=
    String.toList_ofList
  have htrim : Text.trimChars (Text.Base64.encode content) = Text.Base64.encode content :=
    Text.trimChars_of_forall fun _ => Text.Base64.isBlank_of_mem_encode
  rw [htext, bytes]
  by_cases hnil : content = []
  · subst hnil
    rfl
  · have hsome : Text.nonBlank? (String.ofList (Text.Base64.encode content)) =
        some (Text.trim (String.ofList (Text.Base64.encode content))) :=
      Text.nonBlank?_eq_some (by rwa [hchars, htrim, ne_eq, Text.Base64.encode_eq_nil])
    rw [hsome, if_neg hnil]
    dsimp only
    rw [Text.toList_trim, hchars, htrim, Text.Base64.decode?_encode]

theorem BinaryType.decode_of_none {t : BinaryType} {input : Input} (h : bytes input = .ok none) :
    t.decode input = .ok .null := by
  unfold decode
  rw [h]
  rfl

theorem BinaryType.decode_of_some {t : BinaryType} {input : Input} {content : List UInt8}
    (h : bytes input = .ok (some content)) (hcheck : t.check content = .ok ()) :
    t.decode input = .ok (.binary content) := by
  unfold decode
  rw [h]
  show (do t.check content; return .binary content : Except TypeError Value) = _
  rw [hcheck]
  rfl

theorem BinaryType.run_decode (t : BinaryType) (source : Source) {τ : Type} [DictionarySource τ]
    (w : World τ) :
    ((FieldType.element (.binary t)).decode source : Decoding τ Value).run w =
      (t.decode source.input, w) :=
  FieldType.run_decodeBy_element (fun _ => rfl) (fun _ => rfl) (fun _ => validate_of_decode) w

/-- Bytes that a type accepts come back from the wire, unless there are none: those come back as
null. -/
theorem bytes_survive_wire_iff (t : BinaryType) (bytes : List UInt8) {τ : Type}
    [DictionarySource τ] (w : World τ)
    (haccepted : (((FieldType.element (.binary t)).decode (.value (.binary bytes)) :
      Decoding τ Value).run w).1 = .ok (.binary bytes)) :
    ((((FieldType.element (.binary t)).decode (.wire (Value.binary bytes).toWire) :
        Decoding τ Value).run w).1 = .ok (.binary bytes) ↔ bytes ≠ []) ∧
      (bytes = [] → (((FieldType.element (.binary t)).decode (.wire (Value.binary bytes).toWire) :
        Decoding τ Value).run w).1 = .ok .null) := by
  rw [t.run_decode] at haccepted
  rw [t.run_decode]
  have hcheck : t.check bytes = .ok () := BinaryType.validate_of_decode haccepted
  have hbytes := BinaryType.bytes_toWire bytes
  by_cases hnil : bytes = []
  · rw [if_pos hnil] at hbytes
    have hnull : t.decode (Source.input (.wire (Value.binary bytes).toWire)) = .ok .null :=
      BinaryType.decode_of_none hbytes
    rw [hnull]
    exact ⟨iff_of_false nofun (absurd hnil), fun _ => rfl⟩
  · rw [if_neg hnil] at hbytes
    have hback : t.decode (Source.input (.wire (Value.binary bytes).toWire)) =
        .ok (.binary bytes) := BinaryType.decode_of_some hbytes hcheck
    rw [hback]
    exact ⟨iff_of_true rfl hnil, fun h => absurd h hnil⟩

/-- Two bytes are as many as the type takes. -/
theorem two_bytes_survive_wire :
    let type : FieldType := .element (.binary ⟨some 2⟩)
    ((type.decode (.value (.binary [104, 105]))).run noDictionaries).1 =
        .ok (.binary [104, 105]) ∧
      (Value.binary [104, 105]).toWire = .string "aGk=" ∧
      ((type.decode (.wire (Value.binary [104, 105]).toWire)).run noDictionaries).1 =
        .ok (.binary [104, 105]) := by
  have haccepted : (((FieldType.element (.binary ⟨some 2⟩)).decode
      (.value (.binary [104, 105]))).run noDictionaries).1 = .ok (.binary [104, 105]) := by rfl
  exact ⟨haccepted, by rfl,
    (bytes_survive_wire_iff ⟨some 2⟩ [104, 105] noDictionaries haccepted).1.mpr (by decide)⟩

/-- No bytes are accepted, and their wire form is read as null. -/
theorem no_bytes_become_null :
    ¬(∀ (t : BinaryType) (bytes : List UInt8),
        (((FieldType.element (.binary t)).decode (.value (.binary bytes))).run noDictionaries).1 =
            .ok (.binary bytes) →
          (((FieldType.element (.binary t)).decode (.wire (Value.binary bytes).toWire)).run
            noDictionaries).1 = .ok (.binary bytes)) ∧
      (((FieldType.element (.binary ⟨none⟩)).decode (.wire (Value.binary []).toWire)).run
        noDictionaries).1 = .ok .null := by
  refine ⟨fun h => ?_, by rfl⟩
  have hback := h ⟨none⟩ [] (by rfl)
  rw [BinaryType.run_decode] at hback
  cases hback

end TenantSchema
