import TenantSchema.Reference.Via
import TenantSchema.Text.Casing
import TenantSchema.Type.Integer
import TenantSchema.Type.Temporal

/-!
# Field types

The closed family of types: an element type, or lists of one. A list of lists is the list itself, so
lists never nest. A reference type names its dictionary by path; what it resolves to is remembered
under its cell, which all copies of the type share.
-/

namespace TenantSchema

/-- The place where the target of a reference type is remembered. -/
inductive Cell where
  | free (n : Nat)
  /-- The type of a field, which has been built for its position for the how-manieth time. -/
  | field (owner num serial : Nat)
  /-- The id type of a reference type that refers to its own dataset. -/
  | inner (cell : Cell)
deriving DecidableEq, Repr

/-- The primary field of the dataset that holds a reference, by path and definition. -/
structure OwnTarget where
  path : String
  primary : FieldSpec
deriving DecidableEq, Repr

structure LookupType where
  path : String
  domain : Int
  via : Via
  cell : Cell
  /-- Set when the type refers to the dataset that it belongs to. -/
  own : Option OwnTarget := none
deriving DecidableEq, Repr

/-- A reference type of its own. -/
def LookupType.free (n : Nat) (domain : Int) (path : String) (via : Via) : LookupType :=
  { path := Text.trim path, domain, via, cell := .free n }

inductive ElementType where
  /-- Stands in for a missing type; whatever is done with it fails. -/
  | undefined (cause : Option String)
  | bool
  | signed (t : SignedType)
  | unsigned (t : UnsignedType)
  | float (t : FloatType)
  | binary (t : BinaryType)
  | text (t : TextType)
  | datetime (t : DatetimeType)
  | duration (t : DurationType)
  | lookup (t : LookupType)
deriving DecidableEq, Repr

inductive FieldType where
  | element (e : ElementType)
  | list (e : ElementType)
deriving DecidableEq, Repr

def ElementType.kind : ElementType → Kind
  | .undefined _ => .none
  | .bool => .bool
  | .signed t => .signed t.kind
  | .unsigned t => .unsigned t.kind
  | .float t => .float t.kind
  | .binary _ => .binary
  | .text t => .text t.kind
  | .datetime _ => .datetime
  | .duration _ => .duration
  | .lookup _ => .lookup

namespace FieldType

def kind : FieldType → Kind
  | .element e => e.kind
  | .list _ => .list

/-- The element type of a list. -/
def elem? : FieldType → Option ElementType
  | .element _ => none
  | .list e => some e

/-- Lists of a type. -/
def listOf : FieldType → FieldType
  | .element e => .list e
  | .list e => .list e

def isUndefined : FieldType → Bool
  | .element (.undefined _) => true
  | _ => false

def lookup? : FieldType → Option LookupType
  | .element (.lookup l) => some l
  | _ => none

theorem listOf_listOf (t : FieldType) : t.listOf.listOf = t.listOf := by cases t <;> rfl

end FieldType

/-! ### Types of fields -/

/-- What the type of a field needs from its dataset. -/
structure TypeContext where
  domain : Int := 0
  ownerPath : String := ""
  ownerPrimary : Option FieldSpec := none
  via : Via := .default
deriving DecidableEq, Repr

/-- A dataset that refers to itself needs no lookup, unless its primary field is a reference. -/
def TypeContext.own? (ctx : TypeContext) (path : String) : Option OwnTarget :=
  match ctx.ownerPrimary with
  | none => none
  | some primary =>
    if !path.isEmpty && Text.eqIgnoringAsciiCase path ctx.ownerPath &&
        primary.resolvedKind != .lookup then
      some { path := ctx.ownerPath, primary }
    else none

def LookupType.ofContext (cell : Cell) (path : String) (ctx : TypeContext) : LookupType :=
  let path := Text.trim path
  { path, domain := ctx.domain, via := ctx.via, cell, own := ctx.own? path }

/-- The type of a kind, constrained by a type spec as far as it is one of that kind. -/
def ElementType.ofKind (cell : Cell) (kind : Kind) (spec : Option TypeSpec) (ctx : TypeContext) :
    ElementType :=
  match kind with
  | .none => .undefined none
  | .list => .undefined none
  | .bool => .bool
  | .signed k => .signed (.ofBounds k (spec.bind (·.signed?)))
  | .unsigned k => .unsigned (.ofBounds k (spec.bind (·.unsigned?)))
  | .float k => .float (.ofBounds k (spec.bind (·.float?)))
  | .binary => .binary ⟨(spec.bind (·.binary?)).join⟩
  | .text k => .text ⟨k, spec.bind (·.text?)⟩
  | .datetime => .datetime (.ofFormat (spec.bind (·.datetime?)).join)
  | .duration => .duration (.ofBounds (spec.bind (·.duration?)))
  | .lookup => .lookup (.ofContext cell ((spec.bind (·.lookup?)).getD "") ctx)

/-- The type of a kind; the type spec of a list describes its elements. -/
def FieldType.ofKind (cell : Cell) (kind : Kind) (spec : Option TypeSpec) (ctx : TypeContext) :
    FieldType :=
  if kind = .list then .list (.ofKind cell ((spec.map (·.kind)).getD .none) spec ctx)
  else .element (.ofKind cell kind spec ctx)

/-- The type of a field definition. -/
def FieldType.ofSpec (cell : Cell) (spec : FieldSpec) (ctx : TypeContext) : FieldType :=
  .ofKind cell spec.resolvedKind spec.typeSpec ctx

/-- The unconstrained type of a kind. -/
def FieldType.of (n : Nat) (kind : Kind) : FieldType :=
  .ofKind (.free n) kind (TypeSpec.ofKind? kind) {}

theorem FieldType.kind_ofSpec (cell : Cell) (spec : FieldSpec) (ctx : TypeContext) :
    (FieldType.ofSpec cell spec ctx).kind = spec.resolvedKind := by
  unfold FieldType.ofSpec FieldType.ofKind
  split
  · next h => rw [h]; rfl
  · next h =>
    show (ElementType.ofKind cell spec.resolvedKind spec.typeSpec ctx).kind = _
    cases hk : spec.resolvedKind <;> simp_all [ElementType.ofKind, ElementType.kind,
      SignedType.ofBounds, UnsignedType.ofBounds, FloatType.ofBounds, SignedType.kind_withBits,
      UnsignedType.kind_withBits]

end TenantSchema
