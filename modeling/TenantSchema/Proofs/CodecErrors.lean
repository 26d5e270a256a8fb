import TenantSchema.Type.Decode

/-!
# Errors of scalar types

What a type finds wrong with an input, a value or itself is its own concern: if a constraint is
violated, the code is one of a few that belong to the type. That a dictionary cannot be found is only
ever said by the one step that looks for it, and only references that lead on and on use up the stack.
-/

namespace TenantSchema

/-- The error says, at any depth of references, that a dictionary was not found, or the references
did not come to an end. -/
def TypeError.isUnresolved : TypeError → Bool
  | .lookupUnresolved _ => true
  | .breakdown .exhausted => true
  | .lookupId _ cause => cause.isUnresolved
  | _ => false

/-- The error is about no other dictionary, and a violation has one of the codes. -/
def TypeError.IsPlain (codes : List String) : TypeError → Prop
  | .violation v => v.code ∈ codes
  | .lookupUnresolved _ => False
  | .lookupId .. => False
  | .breakdown .exhausted => False
  | _ => True

namespace TypeError

variable {codes : List String}

@[simp] theorem isPlain_convert (label : String) (kind : Kind) :
    (convert label kind).IsPlain codes := trivial

@[simp] theorem isPlain_unsupportedTag (tag : String) (kind : Kind) :
    (unsupportedTag tag kind).IsPlain codes := trivial

@[simp] theorem isPlain_parse (input : String) (kind : Kind) :
    (parse input kind).IsPlain codes := trivial

@[simp] theorem isPlain_inexact (value : String) (kind : Kind) :
    (inexact value kind).IsPlain codes := trivial

@[simp] theorem isPlain_overflow : (breakdown .overflow).IsPlain codes := trivial

@[simp] theorem isPlain_violation {v : Violation} :
    (violation v).IsPlain codes ↔ v.code ∈ codes := Iff.rfl

@[simp] theorem isPlain_refuse (kind : Kind) (input : Input) :
    (input.refuse kind).IsPlain codes := by
  unfold Input.refuse
  split <;> simp

theorem isPlain_missing (cause : Option String) : (ElementType.missing cause).IsPlain codes := by
  cases cause <;> trivial

theorem IsPlain.isUnresolved {e : TypeError} (h : e.IsPlain codes) : e.isUnresolved = false := by
  cases e with
  | lookupUnresolved path => exact h.elim
  | lookupId id cause => exact h.elim
  | breakdown b =>
    cases b with
    | overflow => rfl
    | exhausted => exact h.elim
  | _ => rfl

end TypeError

/-- The outcome misses no dictionary, and the references come to an end. -/
def MissesNone {α : Type} (a : Except TypeError α) : Prop :=
  ∀ e, a = .error e → e.isUnresolved = false

/-- The outcome is there: nothing has broken down. -/
def Unbroken {α : Type} (a : Except TypeError α) : Prop :=
  ∀ e, a = .error e → e.breakdown? = none

/-- If the outcome is an error, it is about the type itself. -/
def FindsDefects {α : Type} (a : Except TypeError α) : Prop :=
  ∀ e, a = .error e → ∃ kind defect, e = .descriptor kind defect

/-- If the outcome is an error, it is a plain one. -/
def FailsWithin {α : Type} (codes : List String) (a : Except TypeError α) : Prop :=
  ∀ e, a = .error e → e.IsPlain codes

section Outcomes

variable {α β : Type} {codes : List String}

@[simp] theorem missesNone_ok (a : α) : MissesNone (.ok a : Except TypeError α) := by
  rintro e ⟨⟩

@[simp] theorem missesNone_error {e : TypeError} :
    MissesNone (.error e : Except TypeError α) ↔ e.isUnresolved = false := by
  constructor
  · exact fun h => h e rfl
  · rintro h e' ⟨⟩
    exact h

@[simp] theorem unbroken_ok (a : α) : Unbroken (.ok a : Except TypeError α) := by
  rintro e ⟨⟩

@[simp] theorem unbroken_error {e : TypeError} :
    Unbroken (.error e : Except TypeError α) ↔ e.breakdown? = none := by
  constructor
  · exact fun h => h e rfl
  · rintro h e' ⟨⟩
    exact h

@[simp] theorem findsDefects_ok (a : α) : FindsDefects (.ok a : Except TypeError α) := by
  rintro e ⟨⟩

@[simp] theorem findsDefects_descriptor (kind : Kind) (defect : Defect) :
    FindsDefects (.error (.descriptor kind defect) : Except TypeError α) := by
  rintro e ⟨⟩
  exact ⟨kind, defect, rfl⟩

theorem FindsDefects.missesNone {a : Except TypeError α} (h : FindsDefects a) : MissesNone a := by
  intro e he
  obtain ⟨kind, defect, rfl⟩ := h e he
  rfl

theorem FindsDefects.unbroken {a : Except TypeError α} (h : FindsDefects a) : Unbroken a := by
  intro e he
  obtain ⟨kind, defect, rfl⟩ := h e he
  rfl

@[simp] theorem failsWithin_ok (a : α) : FailsWithin codes (.ok a : Except TypeError α) := by
  rintro e ⟨⟩

@[simp] theorem failsWithin_pure (a : α) : FailsWithin codes (pure a : Except TypeError α) :=
  failsWithin_ok a

@[simp] theorem failsWithin_error {e : TypeError} :
    FailsWithin codes (.error e : Except TypeError α) ↔ e.IsPlain codes := by
  constructor
  · exact fun h => h e rfl
  · rintro h e' ⟨⟩
    exact h

theorem FailsWithin.bind {a : Except TypeError α} {f : α → Except TypeError β}
    (ha : FailsWithin codes a) (hf : ∀ x, FailsWithin codes (f x)) :
    FailsWithin codes (a >>= f) := by
  cases a with
  | ok x => exact hf x
  | error e => exact failsWithin_error.mpr (failsWithin_error.mp ha)

theorem FailsWithin.map {a : Except TypeError α} (f : α → β) (ha : FailsWithin codes a) :
    FailsWithin codes (a.map f) := by
  cases a with
  | ok x => exact failsWithin_ok _
  | error e => exact failsWithin_error.mpr (failsWithin_error.mp ha)

end Outcomes

/-- The codes of the violations that a type finds by itself. -/
def ElementType.codes : ElementType → List String
  | .undefined _ | .bool | .datetime _ => []
  | .signed _ => ["type.int.min.violation", "type.int.max.violation"]
  | .unsigned _ => ["type.uint.min.violation", "type.uint.max.violation"]
  | .float _ =>
    ["type.float.min.violation", "type.float.max.violation", "type.float.finite.violation"]
  | .binary _ => ["type.binary.max_bytes.violation"]
  | .text _ =>
    ["type.string.multiline.violation", "type.string.max_bytes.violation",
      "type.string.max_chars.violation", "type.string.encoding.violation"]
  | .duration _ => ["type.duration.min.violation", "type.duration.max.violation"]
  | .lookup _ => ["type.lookup.id.required"]

/-! ### Scalar types -/

variable (input : Input) (v : Value)

theorem BoolType.decode_failsWithin : FailsWithin ElementType.bool.codes (BoolType.decode input) := by
  unfold decode
  repeat' split
  all_goals simp

theorem BoolType.validate_failsWithin : FailsWithin ElementType.bool.codes (BoolType.validate v) := by
  unfold validate
  split <;> simp

theorem wideInteger_failsWithin {codes : List String} (kind : Kind) {below above : String → TypeError}
    (hbelow : ∀ s, (below s).IsPlain codes) (habove : ∀ s, (above s).IsPlain codes) :
    FailsWithin codes (wideInteger kind below above input) := by
  unfold wideInteger
  repeat' split
  all_goals simp [hbelow, habove]

namespace SignedType

variable (t : SignedType)

theorem isPlain_below (s : String) : (t.below s).IsPlain (ElementType.signed t).codes :=
  List.mem_cons_self

theorem isPlain_above (s : String) : (t.above s).IsPlain (ElementType.signed t).codes :=
  List.mem_cons_of_mem _ List.mem_cons_self

theorem accept_failsWithin (n : Int) : FailsWithin (ElementType.signed t).codes (t.accept n) := by
  unfold accept
  repeat' split
  all_goals simp [isPlain_below, isPlain_above]

theorem decode_failsWithin : FailsWithin (ElementType.signed t).codes (t.decode input) := by
  refine (wideInteger_failsWithin input _ t.isPlain_below t.isPlain_above).bind fun found => ?_
  cases found with
  | none => exact failsWithin_pure _
  | some n => exact (t.accept_failsWithin n).bind fun _ => failsWithin_pure _

theorem validate_failsWithin : FailsWithin (ElementType.signed t).codes (t.validate v) := by
  unfold validate
  split
  · exact failsWithin_ok _
  · exact (t.accept_failsWithin _).map _
  · exact failsWithin_error.mpr trivial

theorem validateDescriptor_findsDefects : FindsDefects t.validateDescriptor := by
  unfold validateDescriptor
  split <;> simp

end SignedType

namespace UnsignedType

variable (t : UnsignedType)

theorem isPlain_below (s : String) : (t.below s).IsPlain (ElementType.unsigned t).codes :=
  List.mem_cons_self

theorem isPlain_above (s : String) : (t.above s).IsPlain (ElementType.unsigned t).codes :=
  List.mem_cons_of_mem _ List.mem_cons_self

theorem accept_failsWithin (n : Int) : FailsWithin (ElementType.unsigned t).codes (t.accept n) := by
  unfold accept
  repeat' split
  all_goals simp [isPlain_below, isPlain_above]

theorem decode_failsWithin : FailsWithin (ElementType.unsigned t).codes (t.decode input) := by
  refine (wideInteger_failsWithin input _ t.isPlain_below t.isPlain_above).bind fun found => ?_
  cases found with
  | none => exact failsWithin_pure _
  | some n => exact (t.accept_failsWithin n).bind fun _ => failsWithin_pure _

theorem validate_failsWithin : FailsWithin (ElementType.unsigned t).codes (t.validate v) := by
  unfold validate
  split
  · exact failsWithin_ok _
  · exact (t.accept_failsWithin _).map _
  · exact failsWithin_error.mpr trivial

theorem validateDescriptor_findsDefects : FindsDefects t.validateDescriptor := by
  unfold validateDescriptor
  split <;> simp

end UnsignedType

namespace FloatType

variable (t : FloatType)

theorem check_failsWithin (x : Number.Binary64) :
    FailsWithin (ElementType.float t).codes (t.check x) := by
  unfold check
  repeat' split
  all_goals simp [ElementType.codes, Violation.code]

theorem number_failsWithin : FailsWithin (ElementType.float t).codes (t.number input) := by
  unfold number
  repeat' split
  all_goals simp

theorem decode_failsWithin : FailsWithin (ElementType.float t).codes (t.decode input) := by
  refine (t.number_failsWithin input).bind fun found => ?_
  cases found with
  | none => exact failsWithin_pure _
  | some x => exact (t.check_failsWithin x).bind fun _ => failsWithin_pure _

theorem validate_failsWithin : FailsWithin (ElementType.float t).codes (t.validate v) := by
  unfold validate
  split
  · exact failsWithin_ok _
  · exact t.check_failsWithin _
  · exact failsWithin_error.mpr trivial

theorem validateDescriptor_findsDefects : FindsDefects t.validateDescriptor := by
  unfold validateDescriptor
  repeat' split
  all_goals simp

end FloatType

namespace BinaryType

variable (t : BinaryType)

theorem check_failsWithin (bytes : List UInt8) :
    FailsWithin (ElementType.binary t).codes (t.check bytes) := by
  unfold check
  split <;> simp [ElementType.codes, Violation.code]

theorem bytes_failsWithin : FailsWithin (ElementType.binary t).codes (bytes input) := by
  unfold bytes
  repeat' split
  all_goals simp

theorem decode_failsWithin : FailsWithin (ElementType.binary t).codes (t.decode input) := by
  refine (t.bytes_failsWithin input).bind fun found => ?_
  cases found with
  | none => exact failsWithin_pure _
  | some content => exact (t.check_failsWithin content).bind fun _ => failsWithin_pure _

theorem validate_failsWithin : FailsWithin (ElementType.binary t).codes (t.validate v) := by
  unfold validate
  split
  · exact failsWithin_ok _
  · exact t.check_failsWithin _
  · exact failsWithin_error.mpr trivial

end BinaryType

namespace TextType

variable (t : TextType)

theorem code_of_excess? {limits : TextLimits} {text : String} {v : Violation}
    (h : excess? limits text = some v) : v.code ∈ (ElementType.text t).codes := by
  unfold excess? at h
  repeat' split at h
  all_goals cases h
  all_goals simp [ElementType.codes, Violation.code]

theorem check_failsWithin (text : String) :
    FailsWithin (ElementType.text t).codes (t.check text) := by
  unfold check
  split
  · next v h =>
    obtain ⟨limits, -, hv⟩ := Option.bind_eq_some_iff.mp h
    exact failsWithin_error.mpr (t.code_of_excess? hv)
  · exact failsWithin_ok _

theorem text_failsWithin : FailsWithin (ElementType.text t).codes (t.text input) := by
  unfold text
  repeat' split
  all_goals simp [ElementType.codes, Violation.code]

theorem decode_failsWithin : FailsWithin (ElementType.text t).codes (t.decode input) := by
  refine (t.text_failsWithin input).bind fun found => ?_
  cases found with
  | none => exact failsWithin_pure _
  | some s => exact (t.check_failsWithin s).bind fun _ => failsWithin_pure _

theorem validate_failsWithin : FailsWithin (ElementType.text t).codes (t.validate v) := by
  unfold validate
  split
  · exact failsWithin_ok _
  · exact t.check_failsWithin _
  · exact failsWithin_error.mpr trivial

end TextType

namespace DatetimeType

variable (t : DatetimeType)

theorem ofTimestamp_failsWithin (i : Option Calendar.Instant) :
    FailsWithin (ElementType.datetime t).codes (ofTimestamp i) := by
  cases i <;> simp [ofTimestamp]

theorem decode_failsWithin : FailsWithin (ElementType.datetime t).codes (t.decode input) := by
  unfold decode
  repeat' split
  all_goals first
    | exact ofTimestamp_failsWithin t _
    | simp

theorem validate_failsWithin : FailsWithin (ElementType.datetime t).codes (validate v) := by
  unfold validate
  split <;> simp

end DatetimeType

namespace DurationType

variable (t : DurationType)

theorem ofNumber_failsWithin (shown : String) (d : Option Duration) :
    FailsWithin (ElementType.duration t).codes (ofNumber shown d) := by
  cases d <;> simp [ofNumber]

theorem span_failsWithin : FailsWithin (ElementType.duration t).codes (span input) := by
  unfold span
  repeat' split
  all_goals first
    | exact ofNumber_failsWithin t _ _
    | simp

theorem validate_failsWithin : FailsWithin (ElementType.duration t).codes (t.validate v) := by
  unfold validate
  repeat' split
  all_goals simp [ElementType.codes, Violation.code]

theorem decode_failsWithin : FailsWithin (ElementType.duration t).codes (t.decode input) :=
  (t.span_failsWithin input).bind fun _ =>
    (t.validate_failsWithin _).bind fun _ => failsWithin_pure _

theorem validateDescriptor_findsDefects : FindsDefects t.validateDescriptor := by
  unfold validateDescriptor
  repeat' split
  all_goals simp

end DurationType

/-! ### Shapes of inputs -/

section Shapes

variable {codes : List String}

theorem RowRef.ofMembers_failsWithin (r : RowRef) (m : WireMap) :
    FailsWithin codes (r.ofMembers m) := by
  induction m generalizing r with
  | nil => exact failsWithin_ok r
  | cons member rest ih =>
    rw [ofMembers]
    split
    · exact ih _
    · exact failsWithin_error.mpr trivial

theorem RowRef.ofInput_failsWithin : FailsWithin codes (RowRef.ofInput input) := by
  unfold ofInput
  split
  all_goals first
    | exact (RowRef.ofMembers_failsWithin _ _).map _
    | simp

theorem FieldType.items_failsWithin : FailsWithin codes (FieldType.items input) := by
  unfold items
  split <;> simp

end Shapes

/-! ### Types that look at nothing else -/

namespace ElementType

variable {τ : Type} {e : ElementType} (he : ∀ l, e ≠ .lookup l)

include he

/-- A type that is no reference decodes without looking at the world. -/
theorem decode_alone : ∃ outcome, FailsWithin e.codes outcome ∧
    ∀ follow, (e.decode follow input : Decoding τ Value) = liftExcept outcome := by
  cases e with
  | undefined cause =>
    exact ⟨_, failsWithin_error.mpr (TypeError.isPlain_missing cause), fun _ => rfl⟩
  | bool => exact ⟨_, BoolType.decode_failsWithin input, fun _ => rfl⟩
  | signed t => exact ⟨_, t.decode_failsWithin input, fun _ => rfl⟩
  | unsigned t => exact ⟨_, t.decode_failsWithin input, fun _ => rfl⟩
  | float t => exact ⟨_, t.decode_failsWithin input, fun _ => rfl⟩
  | binary t => exact ⟨_, t.decode_failsWithin input, fun _ => rfl⟩
  | text t => exact ⟨_, t.decode_failsWithin input, fun _ => rfl⟩
  | datetime t => exact ⟨_, t.decode_failsWithin input, fun _ => rfl⟩
  | duration t => exact ⟨_, t.decode_failsWithin input, fun _ => rfl⟩
  | lookup l => exact absurd rfl (he l)

theorem validate_alone : ∃ outcome, FailsWithin e.codes outcome ∧
    ∀ follow, (e.validate follow v : Decoding τ Unit) = liftExcept outcome := by
  cases e with
  | undefined cause =>
    exact ⟨_, failsWithin_error.mpr (TypeError.isPlain_missing cause), fun _ => rfl⟩
  | bool => exact ⟨_, BoolType.validate_failsWithin v, fun _ => rfl⟩
  | signed t => exact ⟨_, t.validate_failsWithin v, fun _ => rfl⟩
  | unsigned t => exact ⟨_, t.validate_failsWithin v, fun _ => rfl⟩
  | float t => exact ⟨_, t.validate_failsWithin v, fun _ => rfl⟩
  | binary t => exact ⟨_, t.validate_failsWithin v, fun _ => rfl⟩
  | text t => exact ⟨_, t.validate_failsWithin v, fun _ => rfl⟩
  | datetime t => exact ⟨_, t.validate_failsWithin v, fun _ => rfl⟩
  | duration t => exact ⟨_, t.validate_failsWithin v, fun _ => rfl⟩
  | lookup l => exact absurd rfl (he l)

end ElementType

end TenantSchema
