import TenantSchema.Text.Blank
import TenantSchema.Text.Casing
import TenantSchema.Text.Quoted

/-!
# Kinds

The closed set of value categories that a field can carry. Kinds that share a codec differ only in
their flavour: a width, or plain against rich text.
-/

namespace TenantSchema

inductive SignedKind where
  | int
  | int32
  | int64
deriving DecidableEq, Repr

inductive UnsignedKind where
  | uint
  | uint32
  | uint64
deriving DecidableEq, Repr

inductive FloatKind where
  | float
  | float32
  | float64
deriving DecidableEq, Repr

inductive TextKind where
  | string
  | richtext
deriving DecidableEq, Repr

inductive Kind where
  | none
  | list
  | bool
  | signed (kind : SignedKind)
  | unsigned (kind : UnsignedKind)
  | float (kind : FloatKind)
  | binary
  | lookup
  | text (kind : TextKind)
  | datetime
  | duration
deriving DecidableEq, Repr

/-- Coarse family of the kinds with one codec. -/
inductive KindFamily where
  | undefined
  | collection
  | bool
  | signed
  | unsigned
  | float
  | binary
  | reference
  | textual
  | temporal
deriving DecidableEq, Repr

def SignedKind.name : SignedKind → String
  | .int => "int"
  | .int32 => "int32"
  | .int64 => "int64"

def UnsignedKind.name : UnsignedKind → String
  | .uint => "uint"
  | .uint32 => "uint32"
  | .uint64 => "uint64"

def FloatKind.name : FloatKind → String
  | .float => "float"
  | .float32 => "float32"
  | .float64 => "float64"

def TextKind.name : TextKind → String
  | .string => "string"
  | .richtext => "richtext"

/-- Bits of the base range; the plain flavour is 32 bits wide. -/
def SignedKind.bits : SignedKind → Nat
  | .int64 => 64
  | _ => 32

def UnsignedKind.bits : UnsignedKind → Nat
  | .uint64 => 64
  | _ => 32

/-- Bits of the format; the plain flavour is double precision. -/
def FloatKind.bits : FloatKind → Nat
  | .float32 => 32
  | _ => 64

namespace Kind

/-- Canonical lower-case name, used in descriptors and messages. -/
def name : Kind → String
  | .none => "none"
  | .list => "list"
  | .bool => "bool"
  | .signed k => k.name
  | .unsigned k => k.name
  | .float k => k.name
  | .binary => "binary"
  | .lookup => "lookup"
  | .text k => k.name
  | .datetime => "datetime"
  | .duration => "duration"

/-- All kinds, in registry order. -/
def all : List Kind := [
  .none, .list, .bool, .signed .int, .signed .int32, .signed .int64, .unsigned .uint,
  .unsigned .uint32, .unsigned .uint64, .float .float, .float .float32, .float .float64, .binary,
  .lookup, .text .string, .text .richtext, .datetime, .duration]

def family : Kind → KindFamily
  | .none => .undefined
  | .list => .collection
  | .bool => .bool
  | .signed _ => .signed
  | .unsigned _ => .unsigned
  | .float _ => .float
  | .binary => .binary
  | .lookup => .reference
  | .text _ => .textual
  | .datetime => .temporal
  | .duration => .temporal

/-- Bit width of the base range, zero for kinds without one. -/
def bits : Kind → Nat
  | .bool => 1
  | .signed k => k.bits
  | .unsigned k => k.bits
  | .float k => k.bits
  | .datetime => 64
  | .duration => 64
  | _ => 0

def isNone (k : Kind) : Bool := k == .none

/-- Values of this kind are plain numbers on the wire. -/
def isNumeric (k : Kind) : Bool :=
  match k.family with
  | .signed | .unsigned | .float => true
  | _ => false

/-- Neither undefined nor a list. -/
def isScalar (k : Kind) : Bool :=
  match k.family with
  | .undefined | .collection => false
  | _ => true

/-- The kind of a name, ignoring ASCII case and blanks around it. -/
def ofName? (name : String) : Option Kind :=
  let key := Text.lowerAscii (Text.trim name)
  all.find? (·.name == key)

/-- The name with a capital first letter, as diagnostics of descriptors show it. -/
def capitalized (k : Kind) : String := k.name.capitalize

theorem mem_all (k : Kind) : k ∈ all := by
  cases k with
  | signed k => cases k <;> decide
  | unsigned k => cases k <;> decide
  | float k => cases k <;> decide
  | text k => cases k <;> decide
  | _ => decide

theorem name_injective {a b : Kind} (h : a.name = b.name) : a = b := by
  have key : ∀ a ∈ all, ∀ b ∈ all, a.name = b.name → a = b := by decide
  exact key a (mem_all a) b (mem_all b) h

end Kind

namespace KindFamily

def name : KindFamily → String
  | .undefined => "Undefined"
  | .collection => "Collection"
  | .bool => "Bool"
  | .signed => "Signed"
  | .unsigned => "Unsigned"
  | .float => "Float"
  | .binary => "Binary"
  | .reference => "Reference"
  | .textual => "Textual"
  | .temporal => "Temporal"

end KindFamily

/-- Message for a name that no kind has. -/
def unknownKindMessage (name : String) : String := "unknown kind " ++ Text.quoted name

end TenantSchema
