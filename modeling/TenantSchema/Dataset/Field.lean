import TenantSchema.Type.FieldType

/-!
# Fields

A field is one slot of a dataset, built from the definitions of a version of its field list. Every
field that is built has an identity of its own, by the dataset, the position and a serial number: two
fields built from the same definitions are equal in all else, but not the same.
-/

namespace TenantSchema

/-- Names of the primary and the display field; the latter may be a dotted path. -/
structure FieldKeys where
  primary : String := ""
  display : String := ""
deriving DecidableEq, Repr

/-- The part of a display path that names a field. -/
def displayHead (display : String) : String :=
  String.ofList (display.toList.takeWhile (· ≠ '.'))

namespace FieldKeys

/-- The display field is the primary one unless there is another. -/
def of (primary display : String) : FieldKeys :=
  { primary, display := if display.isEmpty then primary else display }

def isPrimary (k : FieldKeys) (name : String) : Bool :=
  !k.primary.isEmpty && Text.eqFold name k.primary

def isDisplay (k : FieldKeys) (name : String) : Bool :=
  !k.display.isEmpty && Text.eqFold name (displayHead k.display)

end FieldKeys

structure Field where
  owner : Nat
  version : UInt32
  /-- Position, counted from one. -/
  num : Nat
  /-- How many fields were built for the position before this one. -/
  serial : Nat
  spec : FieldSpec
  isPrimary : Bool
  isDisplay : Bool
  context : TypeContext
deriving DecidableEq, Repr

namespace Field

def name (f : Field) : String := f.spec.id

def kind (f : Field) : Kind := f.spec.resolvedKind

def cell (f : Field) : Cell := .field f.owner f.num f.serial

def type (f : Field) : FieldType := .ofSpec f.cell f.spec f.context

/-- One and the same field, not merely an equal one. -/
def same (f g : Field) : Bool := f.owner == g.owner && f.num == g.num && f.serial == g.serial

@[simp] theorem same_self (f : Field) : f.same f = true := by simp [same]

theorem same_iff {f g : Field} :
    f.same g = true ↔ f.owner = g.owner ∧ f.num = g.num ∧ f.serial = g.serial := by
  simp [same, and_assoc]

theorem kind_type (f : Field) : f.type.kind = f.kind := FieldType.kind_ofSpec ..

end Field

end TenantSchema
