import TenantSchema.Spec.Basic
import TenantSchema.Text.Blank
import TenantSchema.Type.Error
import TenantSchema.Value.Source

/-!
# Integer types

Signed and unsigned integers of 8, 16, 32 or 64 bits. The width fixes a base range, which a spec may
narrow. Every representation of an integer is first brought to one wide number, then compared with
the bounds.
-/

namespace TenantSchema

open TenantSchema.Number

/-- `n`, or the limit of a 128-bit word that it exceeds. -/
def saturate128 (n : Int) : Int := max minInt128 (min n maxInt128)

/-- The integer of an input, if there is one to be read; blank text counts as null. Text beyond 128
bits is `below` or `above` every range. -/
def wideInteger (kind : Kind) (below above : String → TypeError) :
    Input → Except TypeError (Option Int)
  | .null => .ok none
  | .value (.int n) => .ok (some n.toInt)
  | .value (.uint n) => .ok (some n.toNat)
  | .value (.float x) =>
    match x.integer? with
    | some n => .ok (some (saturate128 n))
    | none => .error (.inexact (floatText x) kind)
  | .value (.text s) =>
    match Text.nonBlank? s with
    | none => .ok none
    | some t =>
      match readInteger minInt128 maxInt128 t.toList with
      | .value n => .ok (some n)
      | .aboveRange => .error (above t)
      | .belowRange => .error (below t)
      | .malformed => .error (.parse t kind)
  | .value v => .error (.convert v.label kind)
  | .struct m => .error (.unsupportedTag (Input.struct m).label kind)
  | .list ws => .error (.unsupportedTag (Input.list ws).label kind)

/-! ### Signed integers -/

structure SignedType where
  kind : SignedKind
  bits : Nat
  min : Int64
  max : Int64
  defect : Option Defect
deriving DecidableEq, Repr

namespace SignedType

/-- Least and greatest integer of a supported width. -/
def baseRange? : Nat → Option (Int64 × Int64)
  | 8 => some (-128, 127)
  | 16 => some (-32768, 32767)
  | 32 => some (-2147483648, 2147483647)
  | 64 => some (Int64.minValue, Int64.maxValue)
  | _ => none

/-- What is wrong with bounds within a base range. -/
def rangeDefect? (bits : Nat) (baseMin baseMax min max : Int64) : Option Defect :=
  if min < baseMin ∨ baseMax < min then some (.signedLower bits min.toInt baseMin.toInt)
  else if baseMax < max ∨ max < baseMin then some (.signedUpper bits max.toInt baseMax.toInt)
  else if max ≤ min then some (.signedRange bits min.toInt max.toInt)
  else none

/-- The type with an explicit width. Bounds that are wrong leave the base range in force. -/
def withBits (kind : SignedKind) (bits : Nat) (bounds : Option (Bounds Int64)) : SignedType :=
  match baseRange? bits with
  | none => ⟨kind, bits, 0, 0, some (.width bits)⟩
  | some (baseMin, baseMax) =>
    match bounds with
    | none => ⟨kind, bits, baseMin, baseMax, none⟩
    | some b =>
      let min := b.min.getD baseMin
      let max := b.max.getD baseMax
      match rangeDefect? bits baseMin baseMax min max with
      | some d => ⟨kind, bits, baseMin, baseMax, some d⟩
      | none => ⟨kind, bits, min, max, none⟩

@[simp] theorem kind_withBits (kind : SignedKind) (bits : Nat) (bounds : Option (Bounds Int64)) :
    (withBits kind bits bounds).kind = kind := by
  unfold withBits
  split
  · rfl
  · split
    · rfl
    · dsimp only
      split <;> rfl

def ofBounds (kind : SignedKind) (bounds : Option (Bounds Int64)) : SignedType :=
  withBits kind kind.bits bounds

def below (t : SignedType) (value : String) : TypeError :=
  .violation (.signedMin t.kind value t.min.toInt)

def above (t : SignedType) (value : String) : TypeError :=
  .violation (.signedMax t.kind value t.max.toInt)

/-- A number within the bounds. -/
def accept (t : SignedType) (n : Int) : Except TypeError Int64 :=
  if n < t.min.toInt then .error (t.below (intText n))
  else if t.max.toInt < n then .error (t.above (intText n))
  else .ok (Int64.ofInt n)

def validateDescriptor (t : SignedType) : Except TypeError Unit :=
  match t.defect with
  | some d => .error (.descriptor (.signed t.kind) d)
  | none => .ok ()

def decode (t : SignedType) (input : Input) : Except TypeError Value := do
  match ← wideInteger (.signed t.kind) t.below t.above input with
  | none => return .null
  | some n => return .int (← t.accept n)

def validate (t : SignedType) : Value → Except TypeError Unit
  | .null => .ok ()
  | .int n => (t.accept n.toInt).map fun _ => ()
  | v => .error (.convert v.label (.signed t.kind))

end SignedType

/-! ### Unsigned integers -/

structure UnsignedType where
  kind : UnsignedKind
  bits : Nat
  min : UInt64
  max : UInt64
  defect : Option Defect
deriving DecidableEq, Repr

namespace UnsignedType

/-- Greatest integer of a supported width. -/
def baseMax? : Nat → Option UInt64
  | 8 => some 255
  | 16 => some 65535
  | 32 => some 4294967295
  | 64 => some 0xFFFFFFFFFFFFFFFF
  | _ => none

def rangeDefect? (bits : Nat) (baseMax min max : UInt64) : Option Defect :=
  if baseMax < min then some (.unsignedLower bits min.toNat baseMax.toNat)
  else if baseMax < max then some (.unsignedUpper bits max.toNat baseMax.toNat)
  else if max ≤ min then some (.unsignedRange bits min.toNat max.toNat)
  else none

/-- The type with an explicit width. Bounds that are wrong leave the base range in force. -/
def withBits (kind : UnsignedKind) (bits : Nat) (bounds : Option (Bounds UInt64)) : UnsignedType :=
  match baseMax? bits with
  | none => ⟨kind, bits, 0, 0, some (.width bits)⟩
  | some baseMax =>
    match bounds with
    | none => ⟨kind, bits, 0, baseMax, none⟩
    | some b =>
      let min := b.min.getD 0
      let max := b.max.getD baseMax
      match rangeDefect? bits baseMax min max with
      | some d => ⟨kind, bits, 0, baseMax, some d⟩
      | none => ⟨kind, bits, min, max, none⟩

@[simp] theorem kind_withBits (kind : UnsignedKind) (bits : Nat) (bounds : Option (Bounds UInt64)) :
    (withBits kind bits bounds).kind = kind := by
  unfold withBits
  split
  · rfl
  · split
    · rfl
    · dsimp only
      split <;> rfl

def ofBounds (kind : UnsignedKind) (bounds : Option (Bounds UInt64)) : UnsignedType :=
  withBits kind kind.bits bounds

def below (t : UnsignedType) (value : String) : TypeError :=
  .violation (.unsignedMin t.kind value t.min.toNat)

def above (t : UnsignedType) (value : String) : TypeError :=
  .violation (.unsignedMax t.kind value t.max.toNat)

/-- A number within the bounds. -/
def accept (t : UnsignedType) (n : Int) : Except TypeError UInt64 :=
  if n < t.min.toNat then .error (t.below (intText n))
  else if t.max.toNat < n then .error (t.above (intText n))
  else .ok (UInt64.ofNat n.toNat)

def validateDescriptor (t : UnsignedType) : Except TypeError Unit :=
  match t.defect with
  | some d => .error (.descriptor (.unsigned t.kind) d)
  | none => .ok ()

def decode (t : UnsignedType) (input : Input) : Except TypeError Value := do
  match ← wideInteger (.unsigned t.kind) t.below t.above input with
  | none => return .null
  | some n => return .uint (← t.accept n)

def validate (t : UnsignedType) : Value → Except TypeError Unit
  | .null => .ok ()
  | .uint n => (t.accept n.toNat).map fun _ => ()
  | v => .error (.convert v.label (.unsigned t.kind))

end UnsignedType

end TenantSchema
