import TenantSchema.Spec.Basic
import TenantSchema.Text.Base64
import TenantSchema.Text.Blank
import TenantSchema.Type.Error
import TenantSchema.Value.Source

/-!
# Booleans, floats, bytes and text

Each type decodes an input into a value of its own shape or null, and checks such a value against
its constraints. Text is read after trimming, blank text being null; only text types keep it as is.
-/

namespace TenantSchema

open TenantSchema.Number

/-- The error for an input that a type cannot convert: a wire structure or a foreign value. -/
def Input.refuse (kind : Kind) : Input → TypeError
  | .struct m => .unsupportedTag (Input.struct m).label kind
  | .list ws => .unsupportedTag (Input.list ws).label kind
  | input => .convert input.label kind

/-! ### Booleans -/

namespace BoolType

def parse? (text : String) : Option Bool :=
  if ["1", "t", "T", "TRUE", "true", "True"].contains text then some true
  else if ["0", "f", "F", "FALSE", "false", "False"].contains text then some false
  else none

def decode : Input → Except TypeError Value
  | .null => .ok .null
  | .value (.bool b) => .ok (.bool b)
  | .value (.text s) =>
    match Text.nonBlank? s with
    | none => .ok .null
    | some t =>
      match parse? t with
      | some b => .ok (.bool b)
      | none => .error (.parse t .bool)
  | input => .error (input.refuse .bool)

def validate : Value → Except TypeError Unit
  | .null => .ok ()
  | .bool _ => .ok ()
  | v => .error (.convert v.label .bool)

end BoolType

/-! ### Floats -/

/-- Finite floating-point numbers. Single-precision ones are rounded, so that they compare equal after
a round trip. -/
structure FloatType where
  kind : FloatKind
  min : Option Binary64
  max : Option Binary64
deriving DecidableEq, Repr

namespace FloatType

def ofBounds (kind : FloatKind) (bounds : Option (Bounds Binary64)) : FloatType :=
  ⟨kind, bounds.bind (·.min), bounds.bind (·.max)⟩

/-- The first bound that is no finite number. -/
def badBound? (t : FloatType) : Option Binary64 :=
  (t.min.toList ++ t.max.toList).find? (!·.isFinite)

def validateDescriptor (t : FloatType) : Except TypeError Unit :=
  match t.badBound?, t.min, t.max with
  | some bound, _, _ => .error (.descriptor (.float t.kind) (.floatBound bound))
  | none, some min, some max =>
    if max.le min then .error (.descriptor (.float t.kind) (.floatRange min max)) else .ok ()
  | none, _, _ => .ok ()

def normalize (t : FloatType) (x : Binary64) : Binary64 :=
  if t.kind.bits = 32 then x.toSingle else x

def representable (t : FloatType) (x : Binary64) : Bool :=
  x.isFinite && !(t.kind.bits == 32 && x.magnitudeAbove maxSingle)

def check (t : FloatType) (x : Binary64) : Except TypeError Unit :=
  if !t.representable x then .error (.violation (.floatFinite t.kind x))
  else
    match t.min.filter x.lt, t.max.filter (·.lt x) with
    | some min, _ => .error (.violation (.floatMin t.kind x min))
    | none, some max => .error (.violation (.floatMax t.kind x max))
    | none, none => .ok ()

/-- The number of an input, if there is one to be read. -/
def number (t : FloatType) : Input → Except TypeError (Option Binary64)
  | .null => .ok none
  | .value (.float x) => .ok (some x)
  | .value (.int n) => .ok (some (.ofInt n.toInt))
  | .value (.uint n) => .ok (some (.ofInt n.toNat))
  | .value (.text s) =>
    match Text.nonBlank? s with
    | none => .ok none
    | some text =>
      match readFloat? text.toList with
      | some x => .ok (some x)
      | none => .error (.parse text (.float t.kind))
  | input => .error (input.refuse (.float t.kind))

def decode (t : FloatType) (input : Input) : Except TypeError Value := do
  match ← t.number input with
  | none => return .null
  | some x =>
    t.check x
    return .float (t.normalize x)

def validate (t : FloatType) : Value → Except TypeError Unit
  | .null => .ok ()
  | .float x => t.check x
  | v => .error (.convert v.label (.float t.kind))

end FloatType

/-! ### Bytes -/

/-- Raw bytes; text is read as base-64. -/
structure BinaryType where
  maxBytes : Option UInt64
deriving DecidableEq, Repr

namespace BinaryType

def check (t : BinaryType) (bytes : List UInt8) : Except TypeError Unit :=
  match t.maxBytes.filter (·.toNat < bytes.length) with
  | some limit => .error (.violation (.binaryMaxBytes bytes.length limit.toNat))
  | none => .ok ()

def bytes : Input → Except TypeError (Option (List UInt8))
  | .null => .ok none
  | .value (.binary content) => .ok (some content)
  | .value (.text s) =>
    match Text.nonBlank? s with
    | none => .ok none
    | some text =>
      match Text.Base64.decode? text.toList with
      | some content => .ok (some content)
      | none => .error (.parse text .binary)
  | input => .error (input.refuse .binary)

def decode (t : BinaryType) (input : Input) : Except TypeError Value := do
  match ← bytes input with
  | none => return .null
  | some content =>
    t.check content
    return .binary content

def validate (t : BinaryType) : Value → Except TypeError Unit
  | .null => .ok ()
  | .binary content => t.check content
  | v => .error (.convert v.label .binary)

end BinaryType

/-! ### Text -/

/-- Plain or rich text, unlimited without a spec. -/
structure TextType where
  kind : TextKind
  limits : Option TextLimits
deriving DecidableEq, Repr

namespace TextType

def isMultiline (t : TextType) : Bool := t.limits.all (·.multiline)

/-- The first limit that a text exceeds. -/
def excess? (limits : TextLimits) (text : String) : Option Violation :=
  if !limits.multiline && text.toList.any (fun c => c = '\n' || c = '\r') then
    some (.textMultiline text)
  else if 0 < limits.maxBytes.toNat ∧ limits.maxBytes.toNat < text.utf8ByteSize then
    some (.textMaxBytes text limits.maxBytes.toNat)
  else if 0 < limits.maxChars.toNat ∧ limits.maxChars.toNat < text.length then
    some (.textMaxChars text limits.maxChars.toNat)
  else none

def check (t : TextType) (text : String) : Except TypeError Unit :=
  match t.limits.bind (excess? · text) with
  | some v => .error (.violation v)
  | none => .ok ()

def text (t : TextType) : Input → Except TypeError (Option String)
  | .null => .ok none
  | .value (.text s) => .ok (some s)
  | .value (.bool b) => .ok (some (if b then "true" else "false"))
  | .value (.int n) => .ok (some (intText n.toInt))
  | .value (.uint n) => .ok (some (natText n.toNat))
  | .value (.float x) => .ok (some (floatText x))
  | .value (.binary bytes) =>
    match String.fromUTF8? ⟨bytes.toArray⟩ with
    | some s => .ok (some s)
    | none => .error (.violation .textEncoding)
  | input => .error (input.refuse (.text t.kind))

def decode (t : TextType) (input : Input) : Except TypeError Value := do
  match ← t.text input with
  | none => return .null
  | some s =>
    t.check s
    return .text s

def validate (t : TextType) : Value → Except TypeError Unit
  | .null => .ok ()
  | .text s => t.check s
  | v => .error (.convert v.label (.text t.kind))

end TextType

end TenantSchema
