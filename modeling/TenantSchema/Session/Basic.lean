import TenantSchema.Record
import TenantSchema.Store.Directory

/-!
# Sessions

A session works on one world under names of its own. Names hold objects: as long as a registry is
held by a name, or by something else that is held, references that merely know it can use it.
-/

namespace TenantSchema

abbrev SessionWorld := World (Store Directory)

inductive Object where
  | registry (r : Registry)
  /-- A registry that is known but not held. -/
  | weak (r : Registry)
  | dataset (d : Descriptor)
  | record (r : Record)
  | type (t : FieldType)
  | codec (c : Codec)
  | field (f : Field)
  | table (id : Nat)
  | backend (id : Nat)
  | sink (id : Nat)

structure Session where
  world : SessionWorld := { store := { outside := {} } }
  /-- Named objects, each name once. -/
  objects : List (String × Object) := []
  /-- The number of reference types made by hand so far. -/
  freeCells : Nat := 0

namespace Session

def get? (s : Session) (name : String) : Option Object := s.objects.lookup name

def erase (s : Session) (name : String) : Session :=
  { s with objects := s.objects.filter (·.1 ≠ name) }

/-- Gives an object a name, which it may take from another. -/
def put (s : Session) (name : String) (o : Object) : Session :=
  { s with objects := (name, o) :: (s.erase name).objects }

/-- The first of some names in their order. -/
def firstName? : List String → Option String
  | [] => none
  | name :: rest =>
    match firstName? rest with
    | none => some name
    | some other => some (if other < name then other else name)

/-- The first of the names that hold a dataset. -/
def nameOf? (s : Session) (d : Descriptor) : Option String :=
  firstName? <| s.objects.filterMap fun (name, o) =>
    match o with
    | .dataset e => if e.id = d.id then some name else none
    | _ => none

/-- A step of the world. -/
def onWorld {α : Type} (step : StateM SessionWorld α) : StateM Session α := fun s =>
  let (a, world) := step s.world
  (a, { s with world })

def onStore {α : Type} (step : StateM (Store Directory) α) : StateM Session α :=
  onWorld (World.onStore step)

def modifyStore (f : Store Directory → Store Directory) : StateM Session Unit :=
  onStore (modify f)

def modifyDirectory (f : Directory → Directory) : StateM Session Unit :=
  modifyStore fun s => { s with outside := f s.outside }

/-! ### Sources -/

def addTable : StateM Session Nat := do
  let id := (← get).world.store.outside.tables.length
  modifyDirectory fun d => { d with tables := d.tables ++ [{}] }
  return id

def addBackend : StateM Session Nat := do
  let id := (← get).world.store.outside.backends.length
  modifyDirectory fun d => { d with backends := d.backends ++ [{}] }
  return id

def modifyTable (id : Nat) (f : Table → Table) : StateM Session Unit :=
  modifyDirectory fun d => { d with tables := d.tables.modify id f }

def modifyBackend (id : Nat) (f : Backend → Backend) : StateM Session Unit :=
  modifyDirectory fun d => { d with backends := d.backends.modify id f }

/-- The questions to a table since they were last taken. -/
def takeTableCalls (id : Nat) : StateM Session (List String) := do
  let calls := ((← get).world.store.outside.tables[id]?.map Table.callTexts).getD []
  modifyTable id ({ · with calls := [] })
  return calls

def takeBackendCalls (id : Nat) : StateM Session (List String) := do
  let calls := ((← get).world.store.outside.backends[id]?.map (·.calls.map (·.text))).getD []
  modifyBackend id ({ · with calls := [] })
  return calls

/-- What a listener has heard since it was last asked. -/
def takeEvents (id : Nat) : StateM Session (List Event) := do
  let events := ((← get).world.store.sinks[id]?).getD []
  modifyStore fun s => { s with sinks := s.sinks.set id [] }
  return events

/-! ### Types -/

/-- A number for one more reference type. -/
def freshCell : StateM Session Nat := do
  let n := (← get).freeCells
  modify fun s => { s with freeCells := n + 1 }
  return n

/-- A reference type bound to a dictionary; without a primary field it has to look for one. -/
def boundType (d : Descriptor) : StateM Session LookupType := do
  let l := LookupType.free (← freshCell) d.domain d.path .default
  match ← onStore (Store.onFields d.id Fields.primaryField) with
  | some f =>
    onWorld (modify (·.remember l.cell { path := d.path, primary := f.name, idType := f.type }))
  | none => pure ()
  return l

/-- The type of a field that stands alone, in a dataset whose references lead nowhere. -/
def standaloneType (spec : FieldSpec) : StateM Session FieldType := do
  let d ← onStore (Store.addDictionary globalDomain
    { name := "t", path := "t", fields := [spec] } .nowhere)
  let f ← onStore (Store.onFields d.id (Fields.get 0))
  return (f.map (·.type)).getD (.element (.undefined none))

end Session

end TenantSchema
