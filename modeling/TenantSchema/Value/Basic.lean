import TenantSchema.Calendar.Instant
import TenantSchema.Duration.Basic

/-!
# Values

The normalized values that codecs produce and records hold. Null is the absence of a value; an empty
list is a value.
-/

namespace TenantSchema

open TenantSchema.Number TenantSchema.Calendar

/-- Reference to a row of another dataset. Only `id` identifies it, the rest is for display. -/
structure RowRef where
  id : String := ""
  name : String := ""
  typePath : String := ""
deriving DecidableEq, Repr

namespace RowRef

def isEmpty (r : RowRef) : Bool := r.id.isEmpty && r.name.isEmpty && r.typePath.isEmpty

end RowRef

inductive Value where
  | null
  | bool (b : Bool)
  | int (n : Int64)
  | uint (n : UInt64)
  | float (x : Binary64)
  | binary (bytes : List UInt8)
  | text (s : String)
  | datetime (t : Instant)
  | duration (d : Duration)
  | lookup (r : RowRef)
  | list (items : List Value)
deriving Repr, Inhabited

namespace Value

def isNull : Value → Bool
  | .null => true
  | _ => false

/-- The word for the value in conversion errors. -/
def label : Value → String
  | .null => "null"
  | .bool _ => "bool"
  | .int _ => "int"
  | .uint _ => "uint"
  | .float _ => "float"
  | .binary _ => "binary"
  | .text _ => "string"
  | .datetime _ => "datetime"
  | .duration _ => "duration"
  | .lookup _ => "lookup"
  | .list _ => "list"

def asBool? : Value → Option Bool
  | .bool b => some b
  | _ => none

def asInt? : Value → Option Int64
  | .int n => some n
  | _ => none

def asUInt? : Value → Option UInt64
  | .uint n => some n
  | _ => none

def asFloat? : Value → Option Binary64
  | .float x => some x
  | _ => none

def asText? : Value → Option String
  | .text s => some s
  | _ => none

def asDatetime? : Value → Option Instant
  | .datetime t => some t
  | _ => none

def asDuration? : Value → Option Duration
  | .duration d => some d
  | _ => none

def asLookup? : Value → Option RowRef
  | .lookup r => some r
  | _ => none

def asList? : Value → Option (List Value)
  | .list items => some items
  | _ => none

@[simp] theorem isNull_iff (v : Value) : v.isNull = true ↔ v = .null := by
  cases v <;> simp [isNull]

end Value

end TenantSchema
