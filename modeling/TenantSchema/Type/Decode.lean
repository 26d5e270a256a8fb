import TenantSchema.Reference.Target
import TenantSchema.Wire

/-!
# Decoding

A type brings a source into a normalized value and checks the value against its constraints. The id
of a reference is decoded by the id type of its dictionary, which may be a reference again; such a
chain is followed as far as the stack goes, and there the call breaks down.
-/

namespace TenantSchema

open TenantSchema.Number

variable {τ : Type}

/-! ### References as values -/

namespace RowRef

/-- The text of a wire scalar, as a member of a reference. -/
def memberText? : Wire → Option String
  | .null => some ""
  | .string s => some (Text.trim s)
  | .int n => some (intText n.val)
  | .float x => some (wireFloatText x)
  | .bool b => some (if b then "true" else "false")
  | .array _ => none
  | .object _ => none

/-- A reference with one member set; names of members ignore ASCII case. -/
def withMember? (r : RowRef) (name text : String) : Option RowRef :=
  match Text.lowerAscii name with
  | "id" => some { r with id := text }
  | "name" => some { r with name := text }
  | "type" => some { r with typePath := text }
  | _ => none

def ofMembers (r : RowRef) : WireMap → Except TypeError RowRef
  | [] => .ok r
  | (name, w) :: rest =>
    match (memberText? w).bind (r.withMember? name) with
    | some r => ofMembers r rest
    | none => .error (.parse name .lookup)

/-- A reference that says nothing is none. -/
def nonEmpty? (r : RowRef) : Option RowRef := if r.isEmpty then none else some r

/-- The reference of an input, if there is one; a scalar is an id. -/
def ofInput : Input → Except TypeError (Option RowRef)
  | .null => .ok none
  | .value (.lookup r) => .ok (nonEmpty? { r with id := Text.trim r.id })
  | .value (.text s) => .ok ((Text.nonBlank? s).map fun id => { id })
  | .value (.int n) => .ok (some { id := intText n.toInt })
  | .value (.uint n) => .ok (some { id := natText n.toNat })
  | .value (.float x) => .ok (some { id := floatText x })
  | .struct members => (ofMembers {} members).map nonEmpty?
  | input => .error (input.refuse .lookup)

end RowRef

/-! ### One hop

`follow` decodes the id of a reference by the type it refers to.
-/

namespace LookupType

/-- The id of a reference is required and suits the dictionary. -/
def check (follow : LookupType → RowRef → Decoding τ Value) (l : LookupType) (r : RowRef) :
    Decoding τ Unit :=
  match Text.nonBlank? r.id with
  | none => throw (.violation .lookupIdRequired)
  | some _ => discard (follow l r)

def decode (follow : LookupType → RowRef → Decoding τ Value) (l : LookupType) (input : Input) :
    Decoding τ Value := do
  match ← RowRef.ofInput input with
  | none => return .null
  | some r =>
    l.check follow r
    return .lookup r

def validate (follow : LookupType → RowRef → Decoding τ Value) (l : LookupType) :
    Value → Decoding τ Unit
  | .null => return ()
  | .lookup r => if r.isEmpty then return () else l.check follow r
  | v => throw (.convert v.label .lookup)

end LookupType

namespace ElementType

/-- The error of a missing type. -/
def missing : Option String → TypeError
  | none => .noType
  | some cause => .undefined cause

def decode (follow : LookupType → RowRef → Decoding τ Value) (input : Input) :
    ElementType → Decoding τ Value
  | .undefined cause => throw (missing cause)
  | .bool => liftExcept (BoolType.decode input)
  | .signed t => liftExcept (t.decode input)
  | .unsigned t => liftExcept (t.decode input)
  | .float t => liftExcept (t.decode input)
  | .binary t => liftExcept (t.decode input)
  | .text t => liftExcept (t.decode input)
  | .datetime t => liftExcept (t.decode input)
  | .duration t => liftExcept (t.decode input)
  | .lookup l => l.decode follow input

def validate (follow : LookupType → RowRef → Decoding τ Value) (v : Value) :
    ElementType → Decoding τ Unit
  | .undefined cause => throw (missing cause)
  | .bool => liftExcept (BoolType.validate v)
  | .signed t => liftExcept (t.validate v)
  | .unsigned t => liftExcept (t.validate v)
  | .float t => liftExcept (t.validate v)
  | .binary t => liftExcept (t.validate v)
  | .text t => liftExcept (t.validate v)
  | .datetime _ => liftExcept (DatetimeType.validate v)
  | .duration t => liftExcept (t.validate v)
  | .lookup l => l.validate follow v

/-- Checks the constraints themselves; `follow` checks the target of a reference. -/
def validateDescriptor (follow : LookupType → Decoding τ Unit) : ElementType → Decoding τ Unit
  | .undefined cause => throw (missing cause)
  | .signed t => liftExcept t.validateDescriptor
  | .unsigned t => liftExcept t.validateDescriptor
  | .float t => liftExcept t.validateDescriptor
  | .duration t => liftExcept t.validateDescriptor
  | .lookup l => follow l
  | .bool | .binary _ | .text _ | .datetime _ => return ()

end ElementType

namespace FieldType

/-- The elements of an input, unless it is null. -/
def items : Input → Except TypeError (Option (List Input))
  | .null => .ok none
  | .value (.list vs) => .ok (some (vs.map .ofValue))
  | .list ws => .ok (some (ws.map .ofWire))
  | input => .error (input.refuse .list)

/-- The normalized value of an input, its own constraints not yet checked throughout. -/
def decodeInput (follow : LookupType → RowRef → Decoding τ Value) (input : Input) :
    FieldType → Decoding τ Value
  | .element e => e.decode follow input
  | .list e => do
    match ← items input with
    | none => return .null
    | some inputs => return .list (← inputs.mapM (e.decode follow ·))

def validateBy (follow : LookupType → RowRef → Decoding τ Value) (v : Value) :
    FieldType → Decoding τ Unit
  | .element e => e.validate follow v
  | .list e =>
    match v with
    | .null => return ()
    | .list vs => vs.forM (e.validate follow ·)
    | v => throw (.convert v.label .list)

def decodeBy (follow : LookupType → RowRef → Decoding τ Value) (input : Input) (t : FieldType) :
    Decoding τ Value := do
  let v ← t.decodeInput follow input
  t.validateBy follow v
  return v

def validateDescriptorBy (follow : LookupType → Decoding τ Unit) : FieldType → Decoding τ Unit
  | .element e => e.validateDescriptor follow
  | .list (.undefined _) => throw (.descriptor .list .listElement)
  | .list e => e.validateDescriptor follow

end FieldType

/-! ### Chains of references -/

variable [DictionarySource τ]

namespace LookupType

/-- The id of a reference, decoded by the primary field that it refers to. -/
def typedIdWithin (l : LookupType) (r : RowRef) : Nat → Decoding τ Value
  | 0 => throw (.breakdown .exhausted)
  | hops + 1 => do
    let target ← l.resolve
    let v ← ExceptT.adapt (.lookupId r.id) <|
      target.idType.decodeBy (fun l r => typedIdWithin l r hops) (.value (.text r.id))
    if v.isNull then throw (.violation .lookupIdRequired)
    return v

def validateTargetWithin (l : LookupType) : Nat → Decoding τ Unit
  | 0 => throw (.breakdown .exhausted)
  | hops + 1 => do
    let target ← l.resolve
    target.idType.validateDescriptorBy fun l => validateTargetWithin l hops

def typedId (l : LookupType) (r : RowRef) : Decoding τ Value :=
  l.typedIdWithin r (DictionarySource.depth τ + 1)

end LookupType

namespace FieldType

/-- The normalized value of a source, within the constraints of the type. -/
def decode (t : FieldType) (source : Source) : Decoding τ Value :=
  t.decodeBy LookupType.typedId source.input

/-- Checks a value against the constraints of the type. -/
def validate (t : FieldType) (v : Value) : Decoding τ Unit := t.validateBy LookupType.typedId v

/-- Checks the type itself, whatever the value. -/
def validateDescriptor (t : FieldType) : Decoding τ Unit :=
  t.validateDescriptorBy (·.validateTargetWithin (DictionarySource.depth τ + 1))

end FieldType

/-! ### Codecs -/

/-- A value bound to a type; a failed decode leaves the value as it was. -/
structure Codec where
  type : FieldType
  value : Value := .null
deriving Repr

namespace Codec

def decode (c : Codec) (source : Source) : Decoding τ Codec := do
  return { c with value := ← c.type.decode source }

def validate (c : Codec) : Decoding τ Unit := c.type.validate c.value

end Codec

end TenantSchema
