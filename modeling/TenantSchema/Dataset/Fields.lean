import TenantSchema.Dataset.Field

/-!
# Field lists

The ordered field definitions of a dataset, with the fields derived from them so far. Replacing the
definitions advances the version; fields and name index entries of an older version are replaced one
at a time, when they are met. Names are indexed in lower case.
-/

namespace TenantSchema

/-- Positions of names. -/
abbrev NameIndex := List (String × Nat)

namespace NameIndex

def get? (ix : NameIndex) (name : String) : Option Nat := List.lookup name ix

def erase (ix : NameIndex) (name : String) : NameIndex := ix.filter (·.1 ≠ name)

def insert (ix : NameIndex) (name : String) (slot : Nat) : NameIndex :=
  (name, slot) :: ix.erase name

/-- Inserts a name that the index does not hold. -/
def insertNew (ix : NameIndex) (name : String) (slot : Nat) : NameIndex :=
  match ix.get? name with
  | some _ => ix
  | none => (name, slot) :: ix

/-- Erases a name that stands for this position. -/
def eraseAt (ix : NameIndex) (name : String) (slot : Nat) : NameIndex :=
  if ix.get? name = some slot then ix.erase name else ix

end NameIndex

structure Fields where
  owner : Nat
  version : UInt32 := 1
  specs : List FieldSpec
  keys : FieldKeys
  context : TypeContext
  /-- The fields derived so far, some perhaps of an older version. -/
  slots : List (Option Field)
  index : NameIndex := []
  /-- The positions that fields have been built for, the latest last. -/
  built : List Nat := []
deriving Repr

namespace Fields

def ofSpecs (owner : Nat) (specs : List FieldSpec) (keys : FieldKeys) (context : TypeContext) :
    Fields :=
  { owner, specs, keys, context, slots := List.replicate specs.length none }

def length (fs : Fields) : Nat := fs.specs.length

def names (fs : Fields) : List String := fs.specs.map (·.id)

/-- The version after `v`; zero is no version. -/
def nextVersion (v : UInt32) : UInt32 := if v + 1 = 0 then 1 else v + 1

/-- Replaces the definitions; what was derived from the old ones stays until it is met. -/
def reset (fs : Fields) (specs : List FieldSpec) (keys : FieldKeys) (context : TypeContext) :
    Fields :=
  { fs with
    version := nextVersion fs.version, specs, keys, context
    slots := fs.slots.take specs.length ++
      List.replicate (specs.length - fs.slots.length) none }

/-- The field derived at a position, if it is of the current version. -/
def fresh? (fs : Fields) (slot : Nat) : Option Field :=
  (fs.slots[slot]?).join.filter (·.version = fs.version)

/-- The serial number at a position: of the field that is there, or of the next one to be built. -/
def serialAt (fs : Fields) (slot : Nat) : Nat :=
  match fs.fresh? slot with
  | some f => f.serial
  | none => fs.built.count slot

/-- The field at a position, by the definitions now in force. -/
def derive (fs : Fields) (slot : Nat) (spec : FieldSpec) : Field :=
  { owner := fs.owner, version := fs.version, num := slot + 1, serial := fs.serialAt slot, spec
    isPrimary := fs.keys.isPrimary spec.id, isDisplay := fs.keys.isDisplay spec.id
    context := fs.context }

/-- Forgets a field of an older version, with its name. -/
def dropStale (fs : Fields) (slot : Nat) : Fields :=
  match (fs.slots[slot]?).join with
  | some stale =>
    { fs with
      slots := fs.slots.set slot none
      index := fs.index.eraseAt (Text.lower stale.name) slot }
  | none => fs

/-- Keeps a newly derived field; the first position of a name stays in the index. -/
def keep (fs : Fields) (slot : Nat) (f : Field) : Fields :=
  { fs with
    slots := fs.slots.set slot (some f)
    index := fs.index.insertNew (Text.lower f.name) slot
    built := fs.built ++ [slot] }

/-- The field at a position with this definition, derived at most once per version. -/
def obtain (slot : Nat) (spec : FieldSpec) : StateM Fields Field := fun fs =>
  match fs.fresh? slot with
  | some f => (f, fs)
  | none =>
    let f := fs.derive slot spec
    (f, (fs.dropStale slot).keep slot f)

/-- The field at a position, counted from zero. -/
def get (slot : Nat) : StateM Fields (Option Field) := do
  match (← MonadState.get).specs[slot]? with
  | none => return none
  | some spec => return some (← obtain slot spec)

/-- The first position whose name equals `key` in lower case. -/
def position? (fs : Fields) (key : String) : Option Nat :=
  fs.specs.findIdx? (Text.lower ·.id = key)

/-- The field that the index holds for a lower-case name, if it still has that name. -/
def indexed? (fs : Fields) (key : String) : Option Field :=
  ((fs.index.get? key).bind fs.fresh?).filter (Text.lower ·.name = key)

/-- The field of a name, ignoring case. -/
def byName (name : String) : StateM Fields (Option Field) := do
  let key := Text.lower name
  let fs ← MonadState.get
  match fs.indexed? key with
  | some f => return some f
  | none =>
    match fs.position? key with
    | some slot =>
      let f ← get slot
      modify fun fs => { fs with index := fs.index.insert key slot }
      return f
    | none =>
      set { fs with index := fs.index.erase key }
      return none

def contains (name : String) : StateM Fields Bool := do return (← byName name).isSome

/-- The fields at `count` positions from `slot` on. -/
def getFrom : Nat → Nat → StateM Fields (List Field)
  | 0, _ => return []
  | count + 1, slot => do
    match ← get slot with
    | some f => return f :: (← getFrom count (slot + 1))
    | none => return []

/-- All fields in order. -/
def toList : StateM Fields (List Field) := do getFrom (← MonadState.get).length 0

/-- The field is the current one at its position. -/
def owns (f : Field) : StateM Fields Bool := do
  if f.owner ≠ (← MonadState.get).owner || f.num = 0 then return false
  match ← get (f.num - 1) with
  | some g => return g.same f
  | none => return false

def primaryField : StateM Fields (Option Field) := do
  let primary := (← MonadState.get).keys.primary
  if primary.isEmpty then return none else byName primary

/-- The field named by the head of the display path. -/
def displayField : StateM Fields (Option Field) := do
  let display := (← MonadState.get).keys.display
  if display.isEmpty then return none else byName (displayHead display)

end Fields

end TenantSchema
