import TenantSchema.Proofs.DecodeSteps
import TenantSchema.Proofs.IntegerLiterals
import TenantSchema.Proofs.Redecoding
import TenantSchema.Proofs.TrimmedText

/-!
# Text for integer types

Text for an integer type is blank, or a literal that lies within the bounds, below or above them, or
no literal. Each of these has an outcome of its own. The one text that gets the outcome of another
is that of digits beyond the 128 bits with something else behind them: it is no literal, and still
taken for a number beyond the bounds.
-/

namespace TenantSchema

open TenantSchema.Number

/-- An integer type of either family, of any width and with any bounds. -/
inductive IntegerType where
  | signed (kind : SignedKind) (bits : Nat) (bounds : Option (Bounds Int64))
  | unsigned (kind : UnsignedKind) (bits : Nat) (bounds : Option (Bounds UInt64))

namespace IntegerType

def type : IntegerType → FieldType
  | signed kind bits bounds => .element (.signed (.withBits kind bits bounds))
  | unsigned kind bits bounds => .element (.unsigned (.withBits kind bits bounds))

def kind : IntegerType → Kind
  | signed kind _ _ => .signed kind
  | unsigned kind _ _ => .unsigned kind

def min : IntegerType → Int
  | signed kind bits bounds => (SignedType.withBits kind bits bounds).min.toInt
  | unsigned kind bits bounds => (UnsignedType.withBits kind bits bounds).min.toNat

def max : IntegerType → Int
  | signed kind bits bounds => (SignedType.withBits kind bits bounds).max.toInt
  | unsigned kind bits bounds => (UnsignedType.withBits kind bits bounds).max.toNat

/-- The value for a number within the bounds. -/
def value : IntegerType → Int → Value
  | signed _ _ _, n => .int (.ofInt n)
  | unsigned _ _ _, n => .uint (.ofNat n.toNat)

/-- The violation of the lower bound by what is shown as `value`. -/
def below : IntegerType → String → TypeError
  | signed kind bits bounds => (SignedType.withBits kind bits bounds).below
  | unsigned kind bits bounds => (UnsignedType.withBits kind bits bounds).below

def above : IntegerType → String → TypeError
  | signed kind bits bounds => (SignedType.withBits kind bits bounds).above
  | unsigned kind bits bounds => (UnsignedType.withBits kind bits bounds).above

/-- The violation of the bound that lies in the direction of the sign. -/
def beyond (t : IntegerType) : Sign → String → TypeError
  | .minus => t.below
  | _ => t.above

/-! ### Bounds -/

section Bounds

theorem signed_min_le_max (kind : SignedKind) (bits : Nat) (bounds : Option (Bounds Int64)) :
    (SignedType.withBits kind bits bounds).min.toInt ≤
      (SignedType.withBits kind bits bounds).max.toInt := by
  have hbase (baseMin baseMax : Int64) (h : SignedType.baseRange? bits = some (baseMin, baseMax)) :
      baseMin.toInt ≤ baseMax.toInt := by
    unfold SignedType.baseRange? at h
    split at h <;> cases h <;> decide
  unfold SignedType.withBits
  split
  · exact Int.le_refl _
  · next baseMin baseMax hrange =>
    split
    · exact hbase baseMin baseMax hrange
    · next b =>
      dsimp only
      split
      · exact hbase baseMin baseMax hrange
      · next hdefect =>
        unfold SignedType.rangeDefect? at hdefect
        split at hdefect
        · cases hdefect
        · split at hdefect
          · cases hdefect
          · split at hdefect
            · cases hdefect
            · next hlt => exact Int64.le_iff_toInt_le.mp (Int64.le_of_lt (Int64.not_le.mp hlt))

theorem unsigned_min_le_max (kind : UnsignedKind) (bits : Nat) (bounds : Option (Bounds UInt64)) :
    (UnsignedType.withBits kind bits bounds).min.toNat ≤
      (UnsignedType.withBits kind bits bounds).max.toNat := by
  unfold UnsignedType.withBits
  split
  · exact Nat.le_refl _
  · next baseMax hrange =>
    split
    · exact Nat.zero_le _
    · next b =>
      dsimp only
      split
      · exact Nat.zero_le _
      · next hdefect =>
        unfold UnsignedType.rangeDefect? at hdefect
        split at hdefect
        · cases hdefect
        · split at hdefect
          · cases hdefect
          · split at hdefect
            · cases hdefect
            · next hlt => exact UInt64.le_iff_toNat_le.mp (UInt64.le_of_lt (UInt64.not_le.mp hlt))

variable (t : IntegerType)

theorem min_le_max : t.min ≤ t.max := by
  cases t with
  | signed kind bits bounds => exact signed_min_le_max kind bits bounds
  | unsigned kind bits bounds => exact Int.ofNat_le.mpr (unsigned_min_le_max kind bits bounds)

/-- Whatever leaves the 128 bits leaves the bounds. -/
theorem minInt128_le_min : minInt128 ≤ t.min := by
  unfold minInt128
  cases t with
  | signed kind bits bounds =>
    have h := Int64.le_toInt (SignedType.withBits kind bits bounds).min
    simp only [min]
    omega
  | unsigned kind bits bounds =>
    simp only [min]
    omega

theorem max_le_maxInt128 : t.max ≤ maxInt128 := by
  unfold maxInt128
  cases t with
  | signed kind bits bounds =>
    have h := Int64.toInt_lt (SignedType.withBits kind bits bounds).max
    simp only [max]
    omega
  | unsigned kind bits bounds =>
    have h := (UnsignedType.withBits kind bits bounds).max.toNat_lt
    simp only [max]
    omega

end Bounds

/-! ### What text gives -/

section Outcomes

/-- Text is trimmed and read within the 128 bits, and a number is passed on. -/
def readText (kind : Kind) (below above : String → TypeError)
    (accept : Int → Except TypeError Value) (text : String) : Except TypeError Value :=
  match Text.nonBlank? text with
  | none => .ok .null
  | some s =>
    match readInteger minInt128 maxInt128 s.toList with
    | .value n => accept n
    | .aboveRange => .error (above s)
    | .belowRange => .error (below s)
    | .malformed => .error (.parse s kind)

theorem bind_wideInteger_text (kind : Kind) (below above : String → TypeError)
    (accept : Int → Except TypeError Value) (text : String) :
    (do
      match ← wideInteger kind below above (.value (.text text)) with
      | none => return .null
      | some n => accept n) = readText kind below above accept text := by
  unfold wideInteger readText
  dsimp only
  cases Text.nonBlank? text with
  | none => rfl
  | some s =>
    dsimp only
    cases readInteger minInt128 maxInt128 s.toList <;> rfl

variable (t : IntegerType) {text : String} {n : Int}

/-- The number is compared with the bounds. -/
def accept (n : Int) : Except TypeError Value :=
  if n < t.min then .error (t.below (intText n))
  else if t.max < n then .error (t.above (intText n))
  else .ok (t.value n)

def ofText (text : String) : Except TypeError Value :=
  readText t.kind t.below t.above t.accept text

/-- A number that is read is compared with the bounds; nothing else makes a difference. -/
theorem decode_run (source : Source) {τ : Type} [DictionarySource τ] (w : World τ) :
    (t.type.decode source : Decoding τ Value).run w =
      (do
        match ← wideInteger t.kind t.below t.above source.input with
        | none => return .null
        | some n => t.accept n, w) := by
  unfold FieldType.decode
  cases t with
  | signed kind bits bounds =>
    have haccept (n : Int) :
        (do return Value.int (← (SignedType.withBits kind bits bounds).accept n)) =
          (signed kind bits bounds).accept n := by
      unfold SignedType.accept accept
      split
      · exact (if_pos ‹_›).symm
      · split
        · exact ((if_neg ‹_›).trans (if_pos ‹_›)).symm
        · exact ((if_neg ‹_›).trans (if_neg ‹_›)).symm
    have hdecode : (SignedType.withBits kind bits bounds).decode source.input = (do
        match ← wideInteger (.signed kind) (signed kind bits bounds).below
          (signed kind bits bounds).above source.input with
        | none => return .null
        | some n => (signed kind bits bounds).accept n) := by
      unfold SignedType.decode
      rw [SignedType.kind_withBits]
      simp only [haccept]
      rfl
    refine Eq.trans ?_ (congrArg (·, w) hdecode)
    exact FieldType.run_decodeBy_element (fun _ => rfl) (fun _ => rfl)
      (fun _ => SignedType.validate_of_decode) w
  | unsigned kind bits bounds =>
    have haccept (n : Int) :
        (do return Value.uint (← (UnsignedType.withBits kind bits bounds).accept n)) =
          (unsigned kind bits bounds).accept n := by
      unfold UnsignedType.accept accept
      split
      · exact (if_pos ‹_›).symm
      · split
        · exact ((if_neg ‹_›).trans (if_pos ‹_›)).symm
        · exact ((if_neg ‹_›).trans (if_neg ‹_›)).symm
    have hdecode : (UnsignedType.withBits kind bits bounds).decode source.input = (do
        match ← wideInteger (.unsigned kind) (unsigned kind bits bounds).below
          (unsigned kind bits bounds).above source.input with
        | none => return .null
        | some n => (unsigned kind bits bounds).accept n) := by
      unfold UnsignedType.decode
      rw [UnsignedType.kind_withBits]
      simp only [haccept]
      rfl
    refine Eq.trans ?_ (congrArg (·, w) hdecode)
    exact FieldType.run_decodeBy_element (fun _ => rfl) (fun _ => rfl)
      (fun _ => UnsignedType.validate_of_decode) w

theorem decode_text {source : Source} (hsource : source.input = .value (.text text)) {τ : Type}
    [DictionarySource τ] (w : World τ) :
    (t.type.decode source : Decoding τ Value).run w = (t.ofText text, w) := by
  rw [t.decode_run source w, hsource]
  exact congrArg (·, w) (bind_wideInteger_text t.kind t.below t.above t.accept text)

end Outcomes

/-! ### One outcome for each class of text -/

section Classes

variable (t : IntegerType) {text : String} {n : Int}

theorem ofText_blank (h : ∀ c ∈ text.toList, Text.isBlank c = true) :
    t.ofText text = .ok .null := by
  unfold ofText readText
  rw [Text.nonBlank?_eq_none (Text.trimChars_eq_nil_iff.mpr h)]

theorem ofText_trimmed (h : (Text.trim text).toList ≠ []) :
    t.ofText text =
      match readInteger minInt128 maxInt128 (Text.trim text).toList with
      | .value n => t.accept n
      | .aboveRange => .error (t.above (Text.trim text))
      | .belowRange => .error (t.below (Text.trim text))
      | .malformed => .error (.parse (Text.trim text) t.kind) := by
  unfold ofText readText
  rw [Text.nonBlank?_eq_some (by rwa [← Text.toList_trim])]

theorem ne_nil_of_isLiteral {cs : List Char} (h : IsLiteral cs n) : cs ≠ [] := by
  obtain ⟨sign, digits, rfl, hdigits, -⟩ := h
  exact List.append_ne_nil_of_right_ne_nil _ hdigits.ne_nil

/-- A literal is compared with the bounds, whether the 128 bits hold its number or not. -/
theorem ofText_literal (h : IsLiteral (Text.trim text).toList n) :
    (n < t.min → ∃ shown, t.ofText text = .error (t.below shown)) ∧
      (t.max < n → ∃ shown, t.ofText text = .error (t.above shown)) ∧
      (t.min ≤ n → n ≤ t.max → t.ofText text = .ok (t.value n)) := by
  have hmin := t.minInt128_le_min
  have hmax := t.max_le_maxInt128
  have hle := t.min_le_max
  rw [t.ofText_trimmed (ne_nil_of_isLiteral h), h.readInteger_eq (by decide) (by decide)]
  refine ⟨fun hbelow => ?_, fun habove => ?_, fun hlow hhigh => ?_⟩
  · rw [if_neg (by omega)]
    by_cases hword : n < minInt128
    · rw [if_pos hword]
      exact ⟨_, rfl⟩
    · rw [if_neg hword]
      exact ⟨_, if_pos hbelow⟩
  · by_cases hword : maxInt128 < n
    · rw [if_pos hword]
      exact ⟨_, rfl⟩
    · rw [if_neg hword, if_neg (by omega)]
      exact ⟨_, (if_neg (by omega)).trans (if_pos habove)⟩
  · rw [if_neg (by omega), if_neg (by omega)]
    exact (if_neg (by omega)).trans (if_neg (by omega))

theorem ofText_breaksOff {sign : Sign}
    (h : BreaksOff minInt128 maxInt128 sign (Text.trim text).toList) :
    t.ofText text = .error (t.beyond sign (Text.trim text)) := by
  have hne : (Text.trim text).toList ≠ [] := by
    obtain ⟨digits, c, rest, htext, -⟩ := h
    rw [htext]
    simp
  rw [t.ofText_trimmed hne, h.readInteger_eq (by decide) (by decide)]
  cases sign <;> rfl

/-- What is left of the text when it is trimmed is nothing, a literal, breaks off, or is malformed. -/
theorem ofText_cases (text : String) :
    (∀ c ∈ text.toList, Text.isBlank c = true) ∨ (∃ n, IsLiteral (Text.trim text).toList n) ∨
      (∃ sign, BreaksOff minInt128 maxInt128 sign (Text.trim text).toList) ∨
      (¬∀ c ∈ text.toList, Text.isBlank c = true) ∧ (∀ n, ¬ IsLiteral (Text.trim text).toList n) ∧
        t.ofText text = .error (.parse (Text.trim text) t.kind) := by
  by_cases hblank : ∀ c ∈ text.toList, Text.isBlank c = true
  · exact .inl hblank
  · have hne : (Text.trim text).toList ≠ [] := by
      rw [Text.toList_trim]
      exact fun hnil => hblank (Text.trimChars_eq_nil_iff.mp hnil)
    have hmin : minInt128 ≤ 0 := by decide
    have hmax : 0 ≤ maxInt128 := by decide
    rcases readInteger_cases hmin hmax (Text.trim text).toList with
      hliteral | hbreaks | ⟨hnone, hread⟩
    · exact .inr (.inl hliteral)
    · exact .inr (.inr (.inl hbreaks))
    · refine .inr (.inr (.inr ⟨hblank, hnone, ?_⟩))
      rw [t.ofText_trimmed hne, hread]

theorem not_isLiteral_of_blank (h : ∀ c ∈ text.toList, Text.isBlank c = true) (n : Int) :
    ¬ IsLiteral (Text.trim text).toList n := by
  intro hliteral
  refine ne_nil_of_isLiteral hliteral ?_
  rw [Text.toList_trim]
  exact Text.trimChars_eq_nil_iff.mpr h

end Classes

section Classification

/-- What text for an integer type can be. -/
inductive TextClass where
  | blank
  | within (n : Int)
  | below
  | above
  | malformed

/-- The text is blank, a literal within the bounds or beyond one of them, or no literal. -/
def Belongs (t : IntegerType) (text : String) : TextClass → Prop
  | .blank => ∀ c ∈ text.toList, Text.isBlank c = true
  | .within n => IsLiteral (Text.trim text).toList n ∧ t.min ≤ n ∧ n ≤ t.max
  | .below => ∃ n, IsLiteral (Text.trim text).toList n ∧ n < t.min
  | .above => ∃ n, IsLiteral (Text.trim text).toList n ∧ t.max < n
  | .malformed => (¬∀ c ∈ text.toList, Text.isBlank c = true) ∧
      ∀ n, ¬ IsLiteral (Text.trim text).toList n

/-- The value holds the number, in the family of the type. -/
def Represents : IntegerType → Value → Int → Prop
  | signed _ _ _, v, n => ∃ k : Int64, v = .int k ∧ k.toInt = n
  | unsigned _ _ _, v, n => ∃ k : UInt64, v = .uint k ∧ (k.toNat : Int) = n

/-- The outcome is null, the value of a number, the violation of a bound, or a parse error. -/
def Answers (t : IntegerType) (outcome : Except TypeError Value) : TextClass → Prop
  | .blank => outcome = .ok .null
  | .within n => ∃ v, outcome = .ok v ∧ t.Represents v n
  | .below => ∃ shown, outcome = .error (t.below shown)
  | .above => ∃ shown, outcome = .error (t.above shown)
  | .malformed => ∃ input, outcome = .error (.parse input t.kind)

/-- Each outcome is that of exactly the texts of its class. -/
def Classifies (t : IntegerType) (text : String) (outcome : Except TypeError Value) : Prop :=
  ∀ c, t.Answers outcome c ↔ t.Belongs text c

variable {t : IntegerType} {text : String} {n : Int} {v : Value} {c c' : TextClass}
  {outcome : Except TypeError Value}

theorem not_represents_null : ¬ t.Represents .null n := by
  cases t <;> rintro ⟨k, hk, -⟩ <;> cases hk

theorem Represents.unique {m : Int} (hn : t.Represents v n) (hm : t.Represents v m) : n = m := by
  cases t <;>
  · obtain ⟨k, hk, rfl⟩ := hn
    obtain ⟨l, hl, rfl⟩ := hm
    cases hk.symm.trans hl
    rfl

theorem represents_value (hmin : t.min ≤ n) (hmax : n ≤ t.max) : t.Represents (t.value n) n := by
  cases t with
  | signed kind bits bounds =>
    have hlow := Int64.le_toInt (SignedType.withBits kind bits bounds).min
    have hhigh := Int64.toInt_lt (SignedType.withBits kind bits bounds).max
    simp only [min, max] at hmin hmax
    exact ⟨.ofInt n, rfl, Int64.toInt_ofInt_of_le (by omega) (by omega)⟩
  | unsigned kind bits bounds =>
    have hhigh := (UnsignedType.withBits kind bits bounds).max.toNat_lt
    simp only [min, max] at hmin hmax
    refine ⟨.ofNat n.toNat, rfl, ?_⟩
    rw [UInt64.toNat_ofNat', Nat.mod_eq_of_lt (by omega)]
    omega

theorem below_ne_above (shown shown' : String) : t.below shown ≠ t.above shown' := by
  cases t <;> exact nofun

theorem below_ne_parse (shown input : String) (kind : Kind) :
    t.below shown ≠ .parse input kind := by
  cases t <;> exact nofun

theorem above_ne_parse (shown input : String) (kind : Kind) :
    t.above shown ≠ .parse input kind := by
  cases t <;> exact nofun

/-- An outcome is of one class at most. -/
theorem Answers.unique (h : t.Answers outcome c) (h' : t.Answers outcome c') : c = c' := by
  cases outcome with
  | ok v =>
    have hok {c : TextClass} (h : t.Answers (.ok v) c) :
        c = .blank ∧ v = .null ∨ ∃ n, c = .within n ∧ t.Represents v n := by
      cases c with
      | blank => exact .inl ⟨rfl, Except.ok.inj h⟩
      | within n =>
        obtain ⟨_, hv, hn⟩ := h
        cases hv
        exact .inr ⟨n, rfl, hn⟩
      | below | above | malformed =>
        obtain ⟨_, he⟩ := h
        cases he
    rcases hok h with ⟨rfl, hnull⟩ | ⟨n, rfl, hn⟩ <;>
      rcases hok h' with ⟨rfl, hnull'⟩ | ⟨m, rfl, hm⟩
    · rfl
    · exact absurd (hnull ▸ hm) not_represents_null
    · exact absurd (hnull' ▸ hn) not_represents_null
    · rw [hn.unique hm]
  | error e =>
    have herror {c : TextClass} (h : t.Answers (.error e) c) :
        c = .below ∧ (∃ shown, t.below shown = e) ∨ c = .above ∧ (∃ shown, t.above shown = e) ∨
          c = .malformed ∧ ∃ input, .parse input t.kind = e := by
      cases c with
      | blank => cases h
      | within n =>
        obtain ⟨_, hv, -⟩ := h
        cases hv
      | below =>
        obtain ⟨shown, he⟩ := h
        exact .inl ⟨rfl, shown, (Except.error.inj he).symm⟩
      | above =>
        obtain ⟨shown, he⟩ := h
        exact .inr (.inl ⟨rfl, shown, (Except.error.inj he).symm⟩)
      | malformed =>
        obtain ⟨input, he⟩ := h
        exact .inr (.inr ⟨rfl, input, (Except.error.inj he).symm⟩)
    rcases herror h with ⟨rfl, _, rfl⟩ | ⟨rfl, _, rfl⟩ | ⟨rfl, _, rfl⟩ <;>
      rcases herror h' with ⟨rfl, _, he⟩ | ⟨rfl, _, he⟩ | ⟨rfl, _, he⟩
    · rfl
    · exact absurd he.symm (below_ne_above _ _)
    · exact absurd he.symm (below_ne_parse _ _ _)
    · exact absurd he (below_ne_above _ _)
    · rfl
    · exact absurd he.symm (above_ne_parse _ _ _)
    · exact absurd he (below_ne_parse _ _ _)
    · exact absurd he (above_ne_parse _ _ _)
    · rfl

/-- The class of a literal of the number. -/
def classOf (t : IntegerType) (n : Int) : TextClass :=
  if n < t.min then .below else if t.max < n then .above else .within n

theorem belongs_classOf (h : IsLiteral (Text.trim text).toList n) :
    t.Belongs text (t.classOf n) := by
  unfold classOf
  split
  · next hlow => exact ⟨n, h, hlow⟩
  · split
    · next hhigh => exact ⟨n, h, hhigh⟩
    · exact ⟨h, by omega, by omega⟩

/-- A text is of one class at most. -/
theorem Belongs.unique (h : t.Belongs text c) (h' : t.Belongs text c') : c = c' := by
  have hle := t.min_le_max
  have hshape {c : TextClass} (h : t.Belongs text c) :
      c = .blank ∧ (∀ c ∈ text.toList, Text.isBlank c = true) ∨
        (∃ n, c = t.classOf n ∧ IsLiteral (Text.trim text).toList n) ∨
          c = .malformed ∧ t.Belongs text .malformed := by
    unfold classOf
    cases c with
    | blank => exact .inl ⟨rfl, h⟩
    | within n =>
      refine .inr (.inl ⟨n, ?_, h.1⟩)
      rw [if_neg (by have := h.2.1; omega), if_neg (by have := h.2.2; omega)]
    | below =>
      obtain ⟨n, hn, hlow⟩ := h
      exact .inr (.inl ⟨n, (if_pos hlow).symm, hn⟩)
    | above =>
      obtain ⟨n, hn, hhigh⟩ := h
      exact .inr (.inl ⟨n, by rw [if_neg (by omega), if_pos hhigh], hn⟩)
    | malformed => exact .inr (.inr ⟨rfl, h⟩)
  rcases hshape h with ⟨rfl, hblank⟩ | ⟨n, rfl, hn⟩ | ⟨rfl, hnone⟩ <;>
    rcases hshape h' with ⟨rfl, hblank'⟩ | ⟨m, rfl, hm⟩ | ⟨rfl, hnone'⟩
  · rfl
  · exact absurd hm (not_isLiteral_of_blank hblank m)
  · exact absurd hblank hnone'.1
  · exact absurd hn (not_isLiteral_of_blank hblank' n)
  · rw [hn.unique hm]
  · exact absurd hn (hnone'.2 n)
  · exact absurd hblank' hnone.1
  · exact absurd hm (hnone.2 m)
  · rfl

/-- With one class in common, text and outcome have each class in common. -/
theorem classifies_of (h : t.Answers outcome c) (h' : t.Belongs text c) :
    t.Classifies text outcome := by
  refine fun c' => ⟨fun hc => ?_, fun hc => ?_⟩
  · rw [hc.unique h]
    exact h'
  · rw [hc.unique h']
    exact h

theorem answers_classOf (h : IsLiteral (Text.trim text).toList n) :
    t.Answers (t.ofText text) (t.classOf n) := by
  obtain ⟨hbelow, habove, hwithin⟩ := t.ofText_literal h
  unfold classOf
  split
  · next hlow => exact hbelow hlow
  · split
    · next hhigh => exact habove hhigh
    · exact ⟨_, hwithin (by omega) (by omega), represents_value (by omega) (by omega)⟩

/-- Text that breaks off is refused for a bound, though it is no literal at all. -/
theorem not_classifies_breaksOff {sign : Sign}
    (h : BreaksOff minInt128 maxInt128 sign (Text.trim text).toList) :
    ¬ t.Classifies text (t.ofText text) := by
  intro hclass
  rw [t.ofText_breaksOff h] at hclass
  cases sign with
  | minus =>
    obtain ⟨n, hn, -⟩ := (hclass .below).mp ⟨_, rfl⟩
    exact h.not_isLiteral n hn
  | absent | plus =>
    obtain ⟨n, hn, -⟩ := (hclass .above).mp ⟨_, rfl⟩
    exact h.not_isLiteral n hn

end Classification

end IntegerType

/-- Text is decoded into the outcome of its class, unless it is digits beyond the 128 bits, behind a
sign or none, with something else behind them. That is taken for a number beyond the bound in the
direction of the sign. -/
theorem integer_text_classified (t : IntegerType) (text : String) (source : Source)
    (hsource : source.input = .value (.text text)) {τ : Type} [DictionarySource τ] (w : World τ) :
    (t.Classifies text ((t.type.decode source : Decoding τ Value).run w).1 ↔
        ¬∃ sign, BreaksOff minInt128 maxInt128 sign (Text.trim text).toList) ∧
      ∀ sign, BreaksOff minInt128 maxInt128 sign (Text.trim text).toList →
        ((t.type.decode source : Decoding τ Value).run w).1 =
          .error (t.beyond sign (Text.trim text)) := by
  rw [t.decode_text hsource w]
  refine ⟨⟨?_, fun hwhole => ?_⟩, fun sign => t.ofText_breaksOff⟩
  · rintro hclass ⟨sign, hbreaks⟩
    exact IntegerType.not_classifies_breaksOff hbreaks hclass
  · rcases t.ofText_cases text with hblank | ⟨n, hliteral⟩ | hbreaks | ⟨hblank, hnone, hout⟩
    · have hnull : t.Answers (t.ofText text) .blank := t.ofText_blank hblank
      exact IntegerType.classifies_of hnull hblank
    · exact IntegerType.classifies_of (IntegerType.answers_classOf hliteral)
        (IntegerType.belongs_classOf hliteral)
    · exact absurd hbreaks hwhole
    · have hparse : t.Answers (t.ofText text) .malformed := ⟨_, hout⟩
      exact IntegerType.classifies_of hparse ⟨hblank, hnone⟩

/-- Two hundred is no number of one byte, however it is written. -/
theorem two_hundred_is_classified :
    let byte : IntegerType := .signed .int 8 none
    let outcome := ((byte.type.decode (.wire (.string " +0200 "))).run noDictionaries).1
    byte.Classifies " +0200 " outcome ∧ outcome = .error (byte.above "200") := by
  have hliteral : IsLiteral (Text.trim " +0200 ").toList 200 :=
    ⟨.plus, ['0', '2', '0', '0'], by decide +kernel, ⟨by decide, by simp⟩, by decide⟩
  refine ⟨(integer_text_classified (.signed .int 8 none) " +0200 " (.wire (.string " +0200 ")) rfl
    noDictionaries).1.mpr ?_, by rfl⟩
  rintro ⟨sign, hbreaks⟩
  exact hbreaks.not_isLiteral 200 hliteral

/-- One more than the 128 bits hold, and a letter behind it. -/
def cutOff : String := "170141183460469231731687303715884105728x"

/-- It is no literal, and still refused for the upper bound. -/
theorem cutOff_is_misclassified :
    ¬(∀ (t : IntegerType) (text : String), t.Classifies text
        ((t.type.decode (.wire (.string text))).run noDictionaries).1) ∧
      (((IntegerType.signed .int 64 none).type.decode (.wire (.string cutOff))).run
        noDictionaries).1 = .error ((IntegerType.signed .int 64 none).above cutOff) := by
  have hdigits : cutOff.toList.dropLast.all Char.isDigit = true := by decide +kernel
  have hbreaks : BreaksOff minInt128 maxInt128 .absent (Text.trim cutOff).toList :=
    ⟨cutOff.toList.dropLast, 'x', [], by decide +kernel,
      ⟨by decide +kernel, List.all_eq_true.mp hdigits⟩, by decide, by decide +kernel⟩
  have htrim : Text.trim cutOff = cutOff := by decide +kernel
  have hsource : Source.input (.wire (.string cutOff)) = .value (.text cutOff) := rfl
  have hout := (IntegerType.signed .int 64 none).decode_text hsource noDictionaries
  refine ⟨fun h => ?_, ?_⟩
  · have hclass := h (.signed .int 64 none) cutOff
    rw [hout] at hclass
    exact IntegerType.not_classifies_breaksOff hbreaks hclass
  · rw [hout, IntegerType.ofText_breaksOff _ hbreaks, htrim]
    rfl

end TenantSchema
