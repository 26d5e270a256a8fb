import TenantSchema.Spec.Basic
import TenantSchema.Value.ToWire

/-!
# Specs as wire values

Members with their default value are left out, except those that a spec always shows: name, path,
fields and primary of a dataset, the id of a field, and the limits of a text.
-/

namespace TenantSchema

open TenantSchema.Number

/-- A member that is left out when its text is empty. -/
def textMember (name s : String) : WireMap := if s.isEmpty then [] else [(name, .string s)]

/-- A member that is left out when false. -/
def flagMember (name : String) (b : Bool) : WireMap := if b then [(name, .bool true)] else []

def optionMember {α : Type} (name : String) (write : α → Wire) : Option α → WireMap
  | some a => [(name, write a)]
  | none => []

def signedWire (n : Int64) : Wire := .int (.ofInt64 n)

def unsignedWire (n : UInt64) : Wire := .int (.ofUInt64 n)

def Bounds.toWire {α : Type} (write : α → Wire) (b : Bounds α) : Wire :=
  .object (optionMember "min" write b.min ++ optionMember "max" write b.max)

def TextLimits.toWire (l : TextLimits) : Wire :=
  .object [("multiline", .bool l.multiline), ("max_bytes", unsignedWire l.maxBytes),
    ("max_chars", unsignedWire l.maxChars)]

/-- A type is the name of its kind, with its constraints if it can have any. -/
def TypeSpec.toWire : TypeSpec → Wire
  | .bool => .string Kind.bool.name
  | .signed k b => .object [(k.name, b.toWire signedWire)]
  | .unsigned k b => .object [(k.name, b.toWire unsignedWire)]
  | .float k b => .object [(k.name, b.toWire Binary64.toWire)]
  | .binary maxBytes =>
    .object [(Kind.binary.name, .object (optionMember "max_bytes" unsignedWire maxBytes))]
  | .lookup path => .object [(Kind.lookup.name, .object [("path", .string path)])]
  | .text k limits => .object [(k.name, limits.toWire)]
  | .datetime format =>
    .object [(Kind.datetime.name, .object (optionMember "format" .string format))]
  | .duration b => .object [(Kind.duration.name, b.toWire signedWire)]

def FieldSpec.toWire (f : FieldSpec) : Wire :=
  .object <|
    [("id", .string f.id)] ++ textMember "title" f.title ++ textMember "usage" f.usage ++
    (if f.kind.isNone then [] else [("kind", .string f.kind.name)]) ++
    optionMember "type" TypeSpec.toWire f.typeSpec ++
    flagMember "readonly" f.readonly ++ flagMember "required" f.required ++
    flagMember "disabled" f.disabled ++ flagMember "hidden" f.hidden

def DatasetSpec.toWire (d : DatasetSpec) : Wire :=
  .object <|
    [("name", .string d.name), ("path", .string d.path)] ++ textMember "title" d.title ++
    textMember "usage" d.usage ++
    [("fields", .array (d.fields.map FieldSpec.toWire)), ("primary", .string d.primary)] ++
    textMember "display" d.display ++ flagMember "extendable" d.extendable

end TenantSchema
