import TenantSchema.Number.FloatText
import TenantSchema.Number.Integer

/-!
# Wire values

The generic tagged values exchanged with the outside: scalars, arrays, and objects whose members keep
their order of insertion. An object has each name once.
-/

namespace TenantSchema

open TenantSchema.Number

/-- An integer that a signed or an unsigned 64-bit word holds. -/
structure WireInt where
  val : Int
  minInt64_le : minInt64 ≤ val
  le_maxUInt64 : val ≤ maxUInt64
deriving DecidableEq, Repr

namespace WireInt

def of? (n : Int) : Option WireInt :=
  if h : minInt64 ≤ n ∧ n ≤ maxUInt64 then some ⟨n, h.1, h.2⟩ else none

def ofInt64 (n : Int64) : WireInt :=
  ⟨n.toInt, minInt64_le_toInt n, Int.le_trans (toInt_le_maxInt64 n) (by decide)⟩

def ofUInt64 (n : UInt64) : WireInt :=
  ⟨n.toNat, Int.le_trans (by decide) (Int.natCast_nonneg n.toNat), toNat_le_maxUInt64 n⟩

end WireInt

inductive Wire where
  | null
  | bool (b : Bool)
  | int (n : WireInt)
  | float (x : Binary64)
  | string (s : String)
  | array (items : List Wire)
  | object (members : List (String × Wire))
deriving Repr, Inhabited

/-- Members of a wire object, in order. -/
abbrev WireMap := List (String × Wire)

namespace WireMap

/-- Sets a member: an old one keeps its place, a new one comes last. -/
def insert (m : WireMap) (name : String) (v : Wire) : WireMap :=
  match m with
  | [] => [(name, v)]
  | (k, old) :: rest =>
    if k = name then (name, v) :: rest else (k, old) :: WireMap.insert rest name v

def ofList (members : List (String × Wire)) : WireMap :=
  members.foldl (fun m e => WireMap.insert m e.1 e.2) []

def get? (m : WireMap) (name : String) : Option Wire := List.lookup name m

def names (m : WireMap) : List String := m.map (·.1)

@[simp] theorem insert_nil (name : String) (v : Wire) : insert [] name v = [(name, v)] := rfl

theorem insert_of_not_mem {m : WireMap} {name : String} {v : Wire} (h : name ∉ names m) :
    insert m name v = m ++ [(name, v)] := by
  induction m with
  | nil => rfl
  | cons e rest ih =>
    simp only [names, List.map_cons, List.mem_cons, not_or] at h
    rw [insert, if_neg (Ne.symm h.1), ih h.2]
    rfl

end WireMap

end TenantSchema
