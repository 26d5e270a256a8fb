import TenantSchema.Session.Basic

/-!
# What is still held

An object of the world is held if a name holds it, or if another object does that is itself held.
What nobody holds is gone; objects that hold each other stay.
-/

namespace TenantSchema

/-- Objects of the world that others can hold. -/
inductive Node where
  | domains (id : Nat)
  | link (id : Nat)
  | dataset (id : Nat)
  | table (id : Nat)
  | backend (id : Nat)
  /-- The target remembered for a reference type. -/
  | target (cell : Cell)
deriving DecidableEq, Repr

def Registry.held (r : Registry) : List Node :=
  .domains r.domains ::
    (r.link.toList.flatMap fun link => [.link link.id, .backend link.resolver])

def Via.held : Via → List Node
  | .strong r => r.held
  | .table id => [.table id]
  | _ => []

def FieldType.held : FieldType → List Node
  | .element (.lookup l) | .list (.lookup l) => .target l.cell :: l.via.held
  | _ => []

def Field.held (f : Field) : List Node := .target f.cell :: f.context.via.held

def Object.held : Object → List Node
  | .registry r => r.held
  | .dataset d => [.dataset d.id]
  | .record r => [.dataset r.descriptor.id]
  | .type t => t.held
  | .codec c => c.type.held
  | .field f => f.held
  | .table id => [.table id]
  | .backend id => [.backend id]
  | .weak _ | .sink _ => []

def StoredDataset.held (d : StoredDataset) : List Node :=
  let fields := d.dataset.fields
  let base := match d with
    | .dictionary _ => none
    | .extension x => x.base
  fields.context.via.held ++ (base.toList.map fun b => .dataset b.id) ++
    fields.slots.flatMap fun f => (f.map Field.held).getD []

def ExtensionReply.held : ExtensionReply → List Node
  | .known d => [.dataset d.id]
  | .fresh _ via => via.held

def Backend.held (b : Backend) : List Node :=
  (b.dictionaries.map fun (_, d) => .dataset d.id) ++ b.extensions.flatMap fun (_, reply) => reply.held

namespace SessionWorld

/-- What an object holds. -/
def heldBy (w : SessionWorld) : Node → List Node
  | .domains id =>
    (w.store.domains[id]?.toList.flatMap (·.caches)).flatMap fun (_, c) =>
      c.toList.map fun d => .dataset d.id
  | .link _ => []
  | .dataset id => ((w.store.stored? id).map (·.held)).getD []
  | .table id =>
    (w.store.outside.tables[id]?.toList.flatMap (·.dictionaries)).map fun (_, d) => .dataset d.id
  | .backend id => (w.store.outside.backends[id]?.map (·.held)).getD []
  | .target cell =>
    .target (.inner cell) :: ((w.target? cell).map (·.idType.held)).getD []

def nodes (w : SessionWorld) : List Node :=
  let store := w.store
  (List.range store.domains.length).map .domains ++ (List.range store.links).map .link ++
  (List.range store.datasets.length).map .dataset ++
  (List.range store.outside.tables.length).map .table ++
  (List.range store.outside.backends.length).map .backend ++
  w.targets.map fun (cell, _) => .target cell

/-- Removes, round by round, what neither a root nor a remaining object holds. -/
def holdOut (w : SessionWorld) (roots : List Node) : Nat → List Node → List Node
  | 0, nodes => nodes
  | rounds + 1, nodes =>
    let held := roots ++ nodes.flatMap w.heldBy
    let remaining := nodes.filter held.contains
    if remaining.length = nodes.length then nodes else holdOut w roots rounds remaining

/-- The objects that are held, the default registry among them. -/
def survivors (w : SessionWorld) (roots : List Node) : List Node :=
  w.holdOut (.domains Registry.default.domains :: roots) w.nodes.length w.nodes

end SessionWorld

namespace Session

def roots (s : Session) : List Node := s.objects.flatMap (·.2.held)

/-- A registry that a name holds needs no search. -/
def allRooted (s : Session) : Bool :=
  let roots := s.roots
  let store := s.world.store
  ((List.range store.domains.length).all fun id =>
    id == Registry.default.domains || roots.contains (.domains id)) &&
  (List.range store.links).all fun id => roots.contains (.link id)

/-- Notes which registries are gone. -/
def sweep (s : Session) : Session :=
  if s.allRooted then s
  else
    let held := s.world.survivors s.roots
    let store := s.world.store
    let goneDomains := (List.range store.domains.length).filter fun id =>
      !held.contains (.domains id)
    let goneLinks := (List.range store.links).filter fun id => !held.contains (.link id)
    { s with world := { s.world with store := { store with goneDomains, goneLinks } } }

end Session

end TenantSchema
