import TenantSchema.Value.Basic
import TenantSchema.Wire

/-!
# Sources

Whatever a codec can be asked to decode: nothing, a native value, a wire value or a boxed scalar.
`Source.input` brings them into the one shape that codecs look at.
-/

namespace TenantSchema

open TenantSchema.Number TenantSchema.Calendar

/-- Boxed scalars of message-oriented transports. -/
inductive Wrapper where
  | bool (b : Bool)
  | int32 (n : Int32)
  | int64 (n : Int64)
  | uint32 (n : UInt32)
  | uint64 (n : UInt64)
  /-- A single-precision number, by its bits. -/
  | float (bits : UInt32)
  | double (x : Binary64)
  | string (s : String)
  | bytes (b : List UInt8)
deriving DecidableEq, Repr

def Wrapper.toValue : Wrapper → Value
  | .bool b => .bool b
  | .int32 n => .int n.toInt64
  | .int64 n => .int n
  | .uint32 n => .uint n.toUInt64
  | .uint64 n => .uint n
  | .float bits => .float (ofSingleBits bits)
  | .double x => .float x
  | .string s => .text s
  | .bytes b => .binary b

/-- Native scalars, which widen into a value. -/
inductive Native where
  | bool (b : Bool)
  | int8 (n : Int8)
  | int16 (n : Int16)
  | int32 (n : Int32)
  | int64 (n : Int64)
  | uint8 (n : UInt8)
  | uint16 (n : UInt16)
  | uint32 (n : UInt32)
  | uint64 (n : UInt64)
  /-- A single-precision number, by its bits. -/
  | float32 (bits : UInt32)
  | float64 (x : Binary64)
  | bytes (b : List UInt8)
  | text (s : String)
  | datetime (t : Instant)
  | duration (d : Duration)
  | lookup (r : RowRef)
deriving DecidableEq, Repr

def Native.toValue : Native → Value
  | .bool b => .bool b
  | .int8 n => .int n.toInt64
  | .int16 n => .int n.toInt64
  | .int32 n => .int n.toInt64
  | .int64 n => .int n
  | .uint8 n => .uint n.toUInt64
  | .uint16 n => .uint n.toUInt64
  | .uint32 n => .uint n.toUInt64
  | .uint64 n => .uint n
  | .float32 bits => .float (ofSingleBits bits)
  | .float64 x => .float x
  | .bytes b => .binary b
  | .text s => .text s
  | .datetime t => .datetime t
  | .duration d => .duration d
  | .lookup r => .lookup r

inductive Source where
  | null
  | value (v : Value)
  | wire (w : Wire)
  | wrapper (w : Wrapper)
deriving Repr, Inhabited

def Native.toSource (n : Native) : Source := .value n.toValue

/-- An absent native is null. -/
def Source.ofOption : Option Native → Source
  | none => .null
  | some n => n.toSource

/-- The shape codecs look at: wire scalars and wrappers have become values. -/
inductive Input where
  | null
  | value (v : Value)
  | struct (members : WireMap)
  | list (items : List Wire)
deriving Repr

namespace Input

/-- The word for the input in conversion errors. -/
def label : Input → String
  | .null => "null"
  | .value v => v.label
  | .struct _ => "struct"
  | .list _ => "list"

/-- A wire integer is signed if a signed word holds it. -/
def ofWireInt (n : WireInt) : Input :=
  match int64? n.val with
  | some i => .value (.int i)
  | none => .value (.uint (UInt64.ofNat n.val.toNat))

def ofWire : Wire → Input
  | .null => .null
  | .bool b => .value (.bool b)
  | .int n => ofWireInt n
  | .float x => .value (.float x)
  | .string s => .value (.text s)
  | .array items => .list items
  | .object members => .struct members

def ofValue : Value → Input
  | .null => .null
  | v => .value v

end Input

def Source.input : Source → Input
  | .null => .null
  | .value v => .ofValue v
  | .wrapper w => .value w.toValue
  | .wire w => .ofWire w

end TenantSchema
