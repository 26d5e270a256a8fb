import TenantSchema.Text.Base64
import TenantSchema.Value.Basic
import TenantSchema.Wire

/-!
# Values on the wire

Times and spans become seconds, whole ones staying integers; bytes become base-64 text; a reference
becomes an object without its empty members. What no wire number can express becomes null.
-/

namespace TenantSchema

open TenantSchema.Number TenantSchema.Calendar

/-- A number, null if it is not finite. -/
def Number.Binary64.toWire (x : Binary64) : Wire := if x.isFinite then .float x else .null

/-- `seconds` and `micros` millionths of a second as one number. -/
def fractionalSeconds (seconds micros : Int) : Binary64 :=
  let part := Binary64.ofRat (mkRat micros 1000000)
  .ofRat ((Binary64.ofInt seconds).toRat + part.toRat)

/-- An integer on the wire, null beyond its range. -/
def wireInteger (n : Int) : Wire :=
  match WireInt.of? n with
  | some n => .int n
  | none => .null

def Calendar.Instant.toWire (t : Instant) : Wire :=
  if t.nanos = 0 then wireInteger t.seconds
  else (fractionalSeconds t.seconds (t.nanos / 1000 : Nat)).toWire

def Duration.toWire (d : Duration) : Wire :=
  if d.subsecond = 0 then wireInteger d.seconds
  else (fractionalSeconds d.seconds (d.subsecond.tdiv 1000)).toWire

/-- The non-empty members, in the order id, name, type. -/
def RowRef.members (r : RowRef) : WireMap :=
  ([("id", r.id), ("name", r.name), ("type", r.typePath)].filter fun m => !m.2.isEmpty).map
    fun m => (m.1, .string m.2)

def RowRef.toWire (r : RowRef) : Wire := if r.isEmpty then .null else .object r.members

namespace Value

mutual

def toWire : Value → Wire
  | .null => .null
  | .bool b => .bool b
  | .int n => .int (.ofInt64 n)
  | .uint n => .int (.ofUInt64 n)
  | .float x => x.toWire
  | .binary bytes => .string (String.ofList (Text.Base64.encode bytes))
  | .text s => .string s
  | .datetime t => t.toWire
  | .duration d => d.toWire
  | .lookup r => r.toWire
  | .list items => .array (toWires items)

def toWires : List Value → List Wire
  | [] => []
  | v :: rest => v.toWire :: toWires rest

end

theorem toWires_eq_map (items : List Value) : toWires items = items.map toWire := by
  induction items with
  | nil => rfl
  | cons v rest ih => rw [toWires, ih, List.map_cons]

@[simp] theorem toWire_list (items : List Value) :
    toWire (.list items) = .array (items.map toWire) := by
  rw [toWire, toWires_eq_map]

end Value

end TenantSchema
