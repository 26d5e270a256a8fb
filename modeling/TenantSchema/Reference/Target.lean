import TenantSchema.Error
import TenantSchema.Type.FieldType

/-!
# Targets of references

A reference type resolves to the path and the primary field of a dictionary. Its first success is
remembered for all copies of the type, and a failure is not, so that it is tried again.
-/

namespace TenantSchema

/-- What a reference type resolves to. -/
structure Target where
  path : String
  primary : String
  idType : FieldType
deriving DecidableEq, Repr

/-- A dictionary as a lookup finds it. -/
structure FoundDictionary where
  path : String
  primary : Option (String × FieldType)
deriving DecidableEq, Repr

/-- States in which dictionaries can be looked up; an answer may change the state. -/
class DictionarySource (τ : Type) where
  find : Via → Int → String → StateM τ (Except Error (Option FoundDictionary))
  /-- References that can be followed behind the first one before the stack is used up. -/
  depth : Nat

/-- The targets resolved so far, beside the state that finds dictionaries. -/
structure World (τ : Type) where
  targets : List (Cell × Target) := []
  store : τ

/-- Work that may look up dictionaries and fail with a type error. -/
abbrev Decoding (τ : Type) := ExceptT TypeError (StateM (World τ))

namespace World

variable {τ : Type}

def target? (w : World τ) (cell : Cell) : Option Target := w.targets.lookup cell

/-- The first target of a cell stays. -/
def remember (w : World τ) (cell : Cell) (t : Target) : World τ :=
  match w.target? cell with
  | some _ => w
  | none => { w with targets := (cell, t) :: w.targets }

/-- A step of the store. -/
def onStore {α : Type} (step : StateM τ α) : StateM (World τ) α := fun w =>
  let (a, store) := step w.store
  (a, { w with store })

end World

namespace OwnTarget

/-- The target of a dataset's reference to itself; its id type stands on its own. -/
def target (own : OwnTarget) (cell : Cell) : Target :=
  { path := own.path, primary := own.primary.id, idType := .ofSpec (.inner cell) own.primary {} }

end OwnTarget

namespace LookupType

variable {τ : Type}

/-- The target, if it needs no lookup any more. -/
def target? (l : LookupType) (w : World τ) : Option Target :=
  match l.own with
  | some own => some (own.target l.cell)
  | none => w.target? l.cell

def isResolved (l : LookupType) (w : World τ) : Bool := (l.target? w).isSome

/-- What a lookup brought, as a target. -/
def targetOfFound (l : LookupType) : Except Error (Option FoundDictionary) → Except TypeError Target
  | .ok (some { path, primary := some (primary, idType) }) => .ok { path, primary, idType }
  | .ok (some { primary := none, .. }) => .error (.descriptor .lookup (.lookupPrimary l.path))
  | .ok none => .error (.lookupUnresolved l.path)
  | .error _ => .error (.lookupUnresolved l.path)

/-- The target, looked up if it is not known yet. -/
def resolve [DictionarySource τ] (l : LookupType) : Decoding τ Target := do
  match l.target? (← get) with
  | some t => return t
  | none =>
    if l.path.isEmpty then throw (.descriptor .lookup .lookupPath)
    let found ← ExceptT.lift (World.onStore (DictionarySource.find l.via l.domain l.path))
    match l.targetOfFound found with
    | .error e => throw e
    | .ok t =>
      modify (·.remember l.cell t)
      return t

end LookupType

end TenantSchema
