import TenantSchema.Kind
import TenantSchema.Number.Binary64

/-!
# Specs

Datasets, fields and types defined as data. A spec may be wrong; what is built from it reports that.
-/

namespace TenantSchema

open TenantSchema.Number

/-- Optional limits of a range, both inclusive. -/
structure Bounds (α : Type) where
  min : Option α := none
  max : Option α := none
deriving DecidableEq, Repr

/-- Limits of texts; zero is no limit. -/
structure TextLimits where
  multiline : Bool := false
  maxBytes : UInt64 := 0
  maxChars : UInt64 := 0
deriving DecidableEq, Repr

inductive TypeSpec where
  | bool
  | signed (kind : SignedKind) (bounds : Bounds Int64)
  | unsigned (kind : UnsignedKind) (bounds : Bounds UInt64)
  | float (kind : FloatKind) (bounds : Bounds Binary64)
  | binary (maxBytes : Option UInt64)
  | lookup (path : String)
  | text (kind : TextKind) (limits : TextLimits)
  | datetime (format : Option String)
  /-- Bounds in whole seconds. -/
  | duration (bounds : Bounds Int64)
deriving DecidableEq, Repr

namespace TypeSpec

def kind : TypeSpec → Kind
  | .bool => .bool
  | .signed k _ => .signed k
  | .unsigned k _ => .unsigned k
  | .float k _ => .float k
  | .binary _ => .binary
  | .lookup _ => .lookup
  | .text k _ => .text k
  | .datetime _ => .datetime
  | .duration _ => .duration

/-- The unconstrained type of a scalar kind. -/
def ofKind? : Kind → Option TypeSpec
  | .none => none
  | .list => none
  | .bool => some .bool
  | .signed k => some (.signed k {})
  | .unsigned k => some (.unsigned k {})
  | .float k => some (.float k {})
  | .binary => some (.binary none)
  | .lookup => some (.lookup "")
  | .text k => some (.text k {})
  | .datetime => some (.datetime none)
  | .duration => some (.duration {})

def signed? : TypeSpec → Option (Bounds Int64)
  | .signed _ b => some b
  | _ => none

def unsigned? : TypeSpec → Option (Bounds UInt64)
  | .unsigned _ b => some b
  | _ => none

def float? : TypeSpec → Option (Bounds Binary64)
  | .float _ b => some b
  | _ => none

def binary? : TypeSpec → Option (Option UInt64)
  | .binary maxBytes => some maxBytes
  | _ => none

def text? : TypeSpec → Option TextLimits
  | .text _ limits => some limits
  | _ => none

def datetime? : TypeSpec → Option (Option String)
  | .datetime format => some format
  | _ => none

def duration? : TypeSpec → Option (Bounds Int64)
  | .duration b => some b
  | _ => none

def lookup? : TypeSpec → Option String
  | .lookup path => some path
  | _ => none

theorem kind_of_ofKind? {k : Kind} {t : TypeSpec} (h : ofKind? k = some t) : t.kind = k := by
  cases k <;> simp [ofKind?] at h <;> subst h <;> rfl

end TypeSpec

/-- One field of a dataset. -/
structure FieldSpec where
  id : String := ""
  title : String := ""
  usage : String := ""
  /-- The kind; `none` leaves it to the type. -/
  kind : Kind := .none
  typeSpec : Option TypeSpec := none
  readonly : Bool := false
  required : Bool := false
  disabled : Bool := false
  hidden : Bool := false
deriving DecidableEq, Repr

namespace FieldSpec

/-- A field whose kind follows its type. -/
def ofType (id : String) (t : TypeSpec) : FieldSpec := { id, typeSpec := some t }

/-- An unconstrained field of a kind. -/
def ofKind (id : String) (kind : Kind) : FieldSpec := { id, kind }

/-- A field that holds lists of `elem`. -/
def listOf (id : String) (elem : TypeSpec) : FieldSpec :=
  { id, kind := .list, typeSpec := some elem }

/-- The configured kind, else the one of the type. -/
def resolvedKind (f : FieldSpec) : Kind :=
  if f.kind.isNone then (f.typeSpec.map TypeSpec.kind).getD .none else f.kind

end FieldSpec

/-- A dataset: its keys within a domain, its fields, and which of them identify and show a row. -/
structure DatasetSpec where
  name : String := ""
  path : String := ""
  title : String := ""
  usage : String := ""
  fields : List FieldSpec := []
  primary : String := ""
  /-- A field name, or a dotted path that begins with one. -/
  display : String := ""
  extendable : Bool := false
deriving DecidableEq, Repr

/-- Appends a field. -/
def DatasetSpec.withField (d : DatasetSpec) (f : FieldSpec) : DatasetSpec :=
  { d with fields := d.fields ++ [f] }

end TenantSchema
