import TenantSchema.Store.Validation
import TenantSchema.Value.ToWire

/-!
# Records

A record holds one value per field of a dataset and the names of the fields written so far, the
latest write last. It is bound to one version of the field list: once that list is rebuilt, the
record only answers that it is stale.
-/

namespace TenantSchema

inductive RecordError where
  /-- A field of another dataset. -/
  | foreignField (field : String)
  | noSuchField (dataset field : String)
  | stale (dataset : String)
  | type (field : String) (cause : TypeError)
deriving DecidableEq, Repr

namespace RecordError

/-- How the call has broken down. -/
def breakdown? : RecordError → Option Breakdown
  | .type _ cause => cause.breakdown?
  | _ => none

def errorClass : RecordError → ErrorClass
  | .foreignField _ => .structural
  | .noSuchField .. => .structural
  | .stale _ => .structural
  | .type _ cause => cause.errorClass

def code : RecordError → Option String
  | .type _ cause => cause.code
  | _ => none

def message : RecordError → String
  | .foreignField field => "record.set( field: " ++ field ++ " ); invalid descriptor"
  | .noSuchField dataset field =>
    "record( dataset: " ++ dataset ++ " ); no such field " ++ Text.quoted field
  | .stale dataset =>
    "record( dataset: " ++ dataset ++ " ); fields changed since the record was created"
  | .type field cause => "record( field: " ++ field ++ " ); " ++ cause.message

def toError (e : RecordError) : Error :=
  { errorClass := e.errorClass, origin := .record, code := e.code, message := e.message }

end RecordError

structure Record where
  descriptor : Descriptor
  version : UInt32
  values : List Value
  touched : List String := []
deriving Repr

/-- Work on records in a world. -/
abbrev RecordStep (σ : Type) := ExceptT RecordError (StateM (World (Store σ)))

namespace Record

variable {σ : Type}

/-- An empty record of a dataset. -/
def of (d : Descriptor) (fields : Fields) : Record :=
  { descriptor := d, version := fields.version, values := List.replicate fields.length .null }

def size (r : Record) : Nat := r.values.length

/-- Whether a field has been written, ignoring case. -/
def isTouched (r : Record) (name : String) : Bool :=
  r.touched.any (Text.lower · == Text.lower name)

/-- Moves a name behind all others. -/
def touch (touched : List String) (name : String) : List String := touched.erase name ++ [name]

/-- Stores a value in a slot. -/
def store (r : Record) (slot : Nat) (name : String) (v : Value) : Record :=
  { r with values := r.values.set slot v, touched := touch r.touched name }

/-- The field list is still the one of the record. -/
def isCurrent (r : Record) (w : World (Store σ)) : Bool :=
  (w.store.fields? r.descriptor.id).any (·.version = r.version)

def staleError (r : Record) : RecordError := .stale r.descriptor.path

def checkVersion (r : Record) : RecordStep σ Unit := do
  if !r.isCurrent (← get) then throw r.staleError

/-- The slot of a field of the record's dataset. -/
def slot [Outside σ] (r : Record) (f : Field) : RecordStep σ Nat := do
  let owned ← ExceptT.lift (World.onFields r.descriptor.id (Fields.owns f))
  if !owned then throw (.foreignField f.name)
  if f.version ≠ r.version then throw r.staleError
  if f.num = 0 ∨ r.size < f.num then throw (.foreignField f.name)
  return f.num - 1

variable [Outside σ]

/-- The field of a name. -/
def field (r : Record) (name : String) : RecordStep σ Field := do
  r.checkVersion
  match ← ExceptT.lift (World.onFields r.descriptor.id (Fields.byName name)) with
  | some f => return f
  | none => throw (.noSuchField r.descriptor.path name)

/-- Decodes a source by the type of a field and stores the value. -/
def set (r : Record) (f : Field) (source : Source) : RecordStep σ Record := do
  let slot ← r.slot f
  let v ← ExceptT.adapt (.type f.name) (f.type.decode source)
  return r.store slot f.name v

def setByName (r : Record) (name : String) (source : Source) : RecordStep σ Record := do
  r.set (← r.field name) source

/-- The value of a field, null if it was never set. -/
def get (r : Record) (f : Field) : RecordStep σ Value := do
  let slot ← r.slot f
  return (r.values[slot]?).getD .null

def getByName (r : Record) (name : String) : RecordStep σ Value := do
  r.get (← r.field name)

/-- The fields of some names with their values, as far as there are such fields. -/
def entriesOf (r : Record) : List String → StateM (World (Store σ)) (List (Field × Value))
  | [] => return []
  | name :: rest => do
    let entry := (← World.onFields r.descriptor.id (Fields.byName name)).bind fun f =>
      (r.values[f.num - 1]?).map fun v => (f, v)
    return entry.toList ++ (← entriesOf r rest)

/-- The written fields with their values, the latest write last. -/
def entries (r : Record) : RecordStep σ (List (Field × Value)) := do
  r.checkVersion
  let entries ← ExceptT.lift (r.entriesOf r.touched)
  if entries.any (·.1.version ≠ r.version) then throw r.staleError
  return entries

/-- Hands the written fields to a visitor, the latest write last. -/
def forEach (r : Record) (more : List (Field × Value) → Bool) :
    RecordStep σ (List (Field × Value)) := do
  return visited more [] (← r.entries)

/-- The field that the generic form of a record leaves out: what an extension inherits. -/
def inheritedField (r : Record) : StateM (World (Store σ)) (Option Field) :=
  match r.descriptor.kind with
  | .dictionary => return none
  | .extension => World.onFields r.descriptor.id Fields.primaryField

/-- The wire members of fields whose value is not null. -/
def membersOf (r : Record) (inherited : Option Field) (m : WireMap) : List Field → WireMap
  | [] => m
  | f :: rest =>
    let v := (r.values[f.num - 1]?).getD .null
    if inherited.any (·.same f) || v.isNull then membersOf r inherited m rest
    else membersOf r inherited (WireMap.insert m f.name v.toWire) rest

/-- The generic form: all values that are not null, in the order of the fields. -/
def toMap (r : Record) : RecordStep σ WireMap := do
  r.checkVersion
  let inherited ← ExceptT.lift r.inheritedField
  let fields ← ExceptT.lift (World.onFields r.descriptor.id Fields.toList)
  if fields.any (·.version ≠ r.version) then throw r.staleError
  return r.membersOf inherited [] fields

/-- Sets the members of a generic form in order, up to the first failure. -/
def setMembers (r : Record) : WireMap → StateM (World (Store σ)) (Record × Option RecordError)
  | [] => return (r, none)
  | (name, w) :: rest => do
    match ← (r.setByName name (.wire w)).run with
    | .ok r => setMembers r rest
    | .error e => return (r, some e)

end Record

end TenantSchema
