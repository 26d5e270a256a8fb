import TenantSchema.Number.Integer
import TenantSchema.Spec.Basic
import TenantSchema.Value.Basic
import TenantSchema.Wire

/-!
# Reading specs

A spec is read from an object, or from an array with its members in order. Absent members have their
defaults and unknown ones are ignored; a member of the wrong shape spoils the whole. An integer is
accepted for a float, but no float for an integer.
-/

namespace TenantSchema

open TenantSchema.Number

/-- The members of an object, or of an array by position. -/
def readMembers? (names : List String) : Wire → Option WireMap
  | .object members => some members
  | .array items => if items.length ≤ names.length then some (names.zip items) else none
  | _ => none

/-- A member read by `read`, or its default if it is absent. -/
def readMember? {α : Type} (read : Wire → Option α) (default : α) (m : WireMap) (name : String) :
    Option α :=
  match m.get? name with
  | none => some default
  | some w => read w

/-- A value, or null for none. -/
def readOption? {α : Type} (read : Wire → Option α) : Wire → Option (Option α)
  | .null => some none
  | w => (read w).map some

def readString? : Wire → Option String
  | .string s => some s
  | _ => none

def readBool? : Wire → Option Bool
  | .bool b => some b
  | _ => none

def readInt64? : Wire → Option Int64
  | .int n => int64? n.val
  | _ => none

def readUInt64? : Wire → Option UInt64
  | .int n => uint64? n.val
  | _ => none

def readBinary64? : Wire → Option Binary64
  | .int n => some (.ofInt n.val)
  | .float x => some x
  | _ => none

def readList? {α : Type} (read : Wire → Option α) : Wire → Option (List α)
  | .array items => items.mapM read
  | _ => none

def readKind? : Wire → Option Kind
  | .string s => Kind.ofName? s
  | _ => none

/-- Optional bounds whose limits `read` reads. -/
def Bounds.ofWire? {α : Type} (read : Wire → Option α) (w : Wire) : Option (Bounds α) := do
  let m ← readMembers? ["min", "max"] w
  return { min := ← readMember? (readOption? read) none m "min"
           max := ← readMember? (readOption? read) none m "max" }

def TextLimits.ofWire? (w : Wire) : Option TextLimits := do
  let m ← readMembers? ["multiline", "max_bytes", "max_chars"] w
  return { multiline := ← readMember? readBool? false m "multiline"
           maxBytes := ← readMember? readUInt64? 0 m "max_bytes"
           maxChars := ← readMember? readUInt64? 0 m "max_chars" }

/-- The constraints of the type with this name. -/
def TypeSpec.ofMember? (name : String) (w : Wire) : Option TypeSpec :=
  match name with
  | "bool" => match w with
    | .null => some .bool
    | _ => none
  | "int" => (Bounds.ofWire? readInt64? w).map (.signed .int)
  | "int32" => (Bounds.ofWire? readInt64? w).map (.signed .int32)
  | "int64" => (Bounds.ofWire? readInt64? w).map (.signed .int64)
  | "uint" => (Bounds.ofWire? readUInt64? w).map (.unsigned .uint)
  | "uint32" => (Bounds.ofWire? readUInt64? w).map (.unsigned .uint32)
  | "uint64" => (Bounds.ofWire? readUInt64? w).map (.unsigned .uint64)
  | "float" => (Bounds.ofWire? readBinary64? w).map (.float .float)
  | "float32" => (Bounds.ofWire? readBinary64? w).map (.float .float32)
  | "float64" => (Bounds.ofWire? readBinary64? w).map (.float .float64)
  | "binary" => do
    let m ← readMembers? ["max_bytes"] w
    return .binary (← readMember? (readOption? readUInt64?) none m "max_bytes")
  | "lookup" => do
    let m ← readMembers? ["path"] w
    return .lookup (← readMember? readString? "" m "path")
  | "string" => (TextLimits.ofWire? w).map (.text .string)
  | "richtext" => (TextLimits.ofWire? w).map (.text .richtext)
  | "datetime" => do
    let m ← readMembers? ["format"] w
    return .datetime (← readMember? (readOption? readString?) none m "format")
  | "duration" => (Bounds.ofWire? readInt64? w).map .duration
  | _ => none

/-- A type: an object with its name as the only member, or the bare name of a type without
constraints. -/
def TypeSpec.ofWire? : Wire → Option TypeSpec
  | .string "bool" => some .bool
  | .object [(name, w)] => TypeSpec.ofMember? name w
  | _ => none

def FieldSpec.ofWire? (w : Wire) : Option FieldSpec := do
  let m ← readMembers? ["id", "title", "usage", "kind", "type", "readonly", "required", "disabled",
    "hidden"] w
  return { id := ← readMember? readString? "" m "id"
           title := ← readMember? readString? "" m "title"
           usage := ← readMember? readString? "" m "usage"
           kind := ← readMember? readKind? .none m "kind"
           typeSpec := ← readMember? (readOption? TypeSpec.ofWire?) none m "type"
           readonly := ← readMember? readBool? false m "readonly"
           required := ← readMember? readBool? false m "required"
           disabled := ← readMember? readBool? false m "disabled"
           hidden := ← readMember? readBool? false m "hidden" }

def DatasetSpec.ofWire? (w : Wire) : Option DatasetSpec := do
  let m ← readMembers? ["name", "path", "title", "usage", "fields", "primary", "display",
    "extendable"] w
  return { name := ← readMember? readString? "" m "name"
           path := ← readMember? readString? "" m "path"
           title := ← readMember? readString? "" m "title"
           usage := ← readMember? readString? "" m "usage"
           fields := ← readMember? (readList? FieldSpec.ofWire?) [] m "fields"
           primary := ← readMember? readString? "" m "primary"
           display := ← readMember? readString? "" m "display"
           extendable := ← readMember? readBool? false m "extendable" }

/-- A reference to a row, from its members. -/
def RowRef.ofWire? (w : Wire) : Option RowRef := do
  let m ← readMembers? ["id", "name", "type"] w
  return { id := ← readMember? readString? "" m "id"
           name := ← readMember? readString? "" m "name"
           typePath := ← readMember? readString? "" m "type" }

end TenantSchema
