import TenantSchema.Dataset.Extension
import TenantSchema.Reference.Target
import TenantSchema.Registry.Domains
import TenantSchema.Registry.Event

/-!
# The store

All that changes in the course of a run: datasets with the fields derived so far, the caches of the
registries, their counters and listeners, and the external sources of datasets.
-/

namespace TenantSchema

/-- What an external source answers when it is asked for an extension. -/
inductive ExtensionReply where
  | known (d : Descriptor)
  /-- An extension still to be built, for the domain that asks. -/
  | fresh (spec : DatasetSpec) (via : Via)
deriving DecidableEq, Repr

/-- External sources: tables of dictionaries, and resolvers that registries fall back to. A source
may answer anything and may change as it is asked. It has no hold on the registries: where a resolver
calls them back, its calls are steps between the question and the answer. The stack is external,
too. -/
class Outside (σ : Type) where
  table : Nat → Int → String → StateM σ (Except Error (Option Descriptor))
  dictionary : Nat → Int → String → StateM σ (Except Error (Option Descriptor))
  extension : Nat → Int → String → StateM σ (Except Error (Option ExtensionReply))
  /-- References that can be followed behind the first one before the stack is used up. -/
  depth : Nat

inductive StoredDataset where
  | dictionary (d : Dataset)
  | extension (x : Extension)
deriving Repr

namespace StoredDataset

def dataset : StoredDataset → Dataset
  | .dictionary d => d
  | .extension x => x.dataset

def extension? : StoredDataset → Option Extension
  | .dictionary _ => none
  | .extension x => some x

def setFields (fields : Fields) : StoredDataset → StoredDataset
  | .dictionary d => .dictionary { d with fields }
  | .extension x => .extension { x with dataset := { x.dataset with fields } }

end StoredDataset

/-- Positions in the lists are the numbers by which datasets, caches, counters and listeners are
known. The first caches and counters are those of the default registry. -/
structure Store (σ : Type) where
  datasets : List StoredDataset := []
  domains : List Domains := [.ofConfig {}]
  counters : List Counters := [{}]
  /-- What each listener has heard. -/
  sinks : List (List Event) := []
  /-- The number of resolvers installed so far. -/
  links : Nat := 0
  /-- Caches that nobody holds any more. -/
  goneDomains : List Nat := []
  /-- Installed resolvers that nobody holds any more. -/
  goneLinks : List Nat := []
  outside : σ

namespace Store

variable {σ : Type}

/-! ### Datasets -/

def stored? (id : Nat) (s : Store σ) : Option StoredDataset := s.datasets[id]?

def dataset? (id : Nat) (s : Store σ) : Option Dataset := (s.stored? id).map (·.dataset)

def extension? (id : Nat) (s : Store σ) : Option Extension :=
  (s.stored? id).bind (·.extension?)

def fields? (id : Nat) (s : Store σ) : Option Fields := (s.dataset? id).map (·.fields)

/-- A step of the field list of a dataset; without the dataset, nothing happens. -/
def onFields {α : Type} [Inhabited α] (id : Nat) (step : StateM Fields α) : StateM (Store σ) α :=
  fun s =>
    match s.stored? id with
    | none => (default, s)
    | some d =>
      let (a, fields) := step d.dataset.fields
      (a, { s with datasets := s.datasets.set id (d.setFields fields) })

def setExtension (id : Nat) (x : Extension) (s : Store σ) : Store σ :=
  { s with datasets := s.datasets.set id (.extension x) }

/-- A dictionary of a domain; its references are looked up by `via`. -/
def addDictionary (domain : Int) (spec : DatasetSpec) (via : Via) : StateM (Store σ) Descriptor :=
  fun s =>
    let d := Dataset.ofSpec s.datasets.length .dictionary domain spec via
    (d.descriptor, { s with datasets := s.datasets ++ [.dictionary d] })

/-- An extension of a domain, given what became of its base. -/
def addExtension (domain : Int) (spec : DatasetSpec) (via : Via)
    (found : Except DatasetError Base) : StateM (Store σ) Descriptor := fun s =>
  let x := Extension.ofSpec s.datasets.length domain spec via found
  (x.descriptor, { s with datasets := s.datasets ++ [.extension x] })

/-! ### Registries -/

def addRegistry (config : RegistryConfig) : StateM (Store σ) Registry := fun s =>
  ({ domains := s.domains.length, metrics := s.counters.length },
    { s with domains := s.domains ++ [.ofConfig config], counters := s.counters ++ [{}] })

def addSink : StateM (Store σ) Nat := fun s =>
  (s.sinks.length, { s with sinks := s.sinks ++ [[]] })

/-- The registry over the same caches that falls back to a resolver. A resolver already in place
stays there. -/
def installResolver (r : Registry) (resolver : Nat) : StateM (Store σ) Registry := fun s =>
  if r.link.any (·.resolver = resolver) then (r, s)
  else ({ r with link := some { id := s.links, resolver } }, { s with links := s.links + 1 })

def domainsOf (r : Registry) (s : Store σ) : Domains := (s.domains[r.domains]?).getD (.ofConfig {})

def countersOf (r : Registry) (s : Store σ) : Counters := (s.counters[r.metrics]?).getD {}

def resetCounters (r : Registry) (s : Store σ) : Store σ :=
  { s with counters := s.counters.set r.metrics {} }

def setDomains (r : Registry) (ds : Domains) (s : Store σ) : Store σ :=
  { s with domains := s.domains.set r.domains ds }

/-- The caches and the resolver of the registry are still there. -/
def isAlive (r : Registry) (s : Store σ) : Bool :=
  !s.goneDomains.contains r.domains && !r.link.any (s.goneLinks.contains ·.id)

/-- Counts an event and tells the listener. -/
def emit (r : Registry) (e : Event) : StateM (Store σ) Unit :=
  modify fun s =>
    { s with
      counters := s.counters.modify r.metrics (·.record e)
      sinks := match r.sink with
        | none => s.sinks
        | some sink => s.sinks.modify sink (· ++ [e]) }

/-- A step of the external sources. -/
def onOutside {α : Type} (step : StateM σ α) : StateM (Store σ) α := fun s =>
  let (a, outside) := step s.outside
  (a, { s with outside })

end Store

end TenantSchema
