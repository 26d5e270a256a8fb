import TenantSchema.Registry.Error
import TenantSchema.Store.Basic

/-!
# Registries at work

A registry finds the descriptors of a domain in its caches and falls back to a resolver. A domain
sees its own datasets and the global dictionaries, never those of another domain: an answer of the
resolver for any other domain is discarded.
-/

namespace TenantSchema.Store

variable {σ : Type}

/-- Exactly one domain, by name or path. -/
def lookup (r : Registry) (domain : Int) (key : String) : StateM (Store σ) (Option Descriptor) :=
  fun s =>
    let (found, ds) := (s.domainsOf r).lookup domain key
    (found, s.setDomains r ds)

def register (r : Registry) (d : Descriptor) : StateM (Store σ) (Except RegistryError Unit) := do
  match ((← get).domainsOf r).register d with
  | .ok ds =>
    modify (·.setDomains r ds)
    emit r (.registered d.domain)
    return .ok ()
  | .error e =>
    if e.errorClass = .conflict then emit r (.conflict d.domain)
    return .error (.cache e)

def unregister (r : Registry) (d : Descriptor) : StateM (Store σ) Bool := do
  let (removed, ds) := ((← get).domainsOf r).unregister d
  modify (·.setDomains r ds)
  if removed then emit r (.unregistered d.domain)
  return removed

/-- Drops what a key reaches in a domain. -/
def invalidate (r : Registry) (domain : Int) (key : String) : StateM (Store σ) Bool := do
  match ← lookup r domain key with
  | some d => unregister r d
  | none => return false

/-- The dictionary cached for a domain, with the domain that has it: its own, else the global one. -/
def cachedDictionary (r : Registry) (key : String) :
    List Int → StateM (Store σ) (Option (Int × Descriptor))
  | [] => return none
  | domain :: rest => do
    match (← lookup r domain key).filter (·.kind = .dictionary) with
    | some d => return some (domain, d)
    | none => cachedDictionary r key rest

/-- The domains whose dictionaries a domain sees. -/
def visibleDomains (domain : Int) : List Int :=
  if domain = globalDomain then [domain] else [domain, globalDomain]

variable [Outside σ]

/-- Asks the resolver for a dictionary that no cache holds. -/
def resolveDictionary (r : Registry) (link : ResolverLink) (domain : Int) (key : String) :
    StateM (Store σ) (Except RegistryError (Option Descriptor)) := do
  emit r (.resolverCall .dictionary domain)
  match ← onOutside (Outside.dictionary link.resolver domain key) with
  | .error e =>
    emit r (.resolverError .dictionary domain)
    return .error (.resolver e)
  | .ok found =>
    match found.filter (·.kind = .dictionary) with
    | none => return .ok none
    | some d =>
      if d.domain ≠ domain ∧ d.domain ≠ globalDomain then
        emit r (.discarded .dictionary domain)
        return .ok none
      else
        if globalDomain < d.domain then discard (register r d)
        return .ok (some d)

/-- The dictionary that a domain sees under a path. Only domains other than the global one fall back
to the resolver. -/
def getDictionary (r : Registry) (domain : Int) (path : String) :
    StateM (Store σ) (Except RegistryError (Option Descriptor)) := do
  let domain := max domain globalDomain
  let key := Text.lower path
  if key.isEmpty then return .ok none
  match ← cachedDictionary r key (visibleDomains domain) with
  | some (holder, d) =>
    emit r (.cacheHit holder)
    return .ok (some d)
  | none =>
    emit r (.cacheMiss domain)
    match r.link with
    | none => return .ok none
    | some link =>
      if domain = globalDomain then return .ok none else resolveDictionary r link domain key

/-! ### Lookups -/

/-- The dictionary of a path, by whatever way. -/
def findDictionary (via : Via) (domain : Int) (path : String) :
    StateM (Store σ) (Except Error (Option Descriptor)) := do
  match via with
  | .nowhere => return .ok none
  | .default => return (← getDictionary .default domain path).mapError (·.toError)
  | .strong r => return (← getDictionary r domain path).mapError (·.toError)
  | .weak r =>
    if (← get).isAlive r then return (← getDictionary r domain path).mapError (·.toError)
    else return .ok none
  | .table id => return (← onOutside (Outside.table id domain path)).map (·.filter (·.kind = .dictionary))

instance : DictionarySource (Store σ) where
  find via domain path := do
    match ← findDictionary via domain path with
    | .error e => return .error e
    | .ok none => return .ok none
    | .ok (some d) =>
      let primary ← onFields d.id Fields.primaryField
      return .ok (some { path := d.path, primary := primary.map fun f => (f.name, f.type) })
  depth := Outside.depth σ

/-- A dictionary as the base of an extension with this path. -/
def checkBase (path : String) (d : Descriptor) : StateM (Store σ) (Except DatasetError Base) := do
  let primary ← if d.isExtendable then onFields d.id Fields.primaryField else pure none
  return Base.check path d primary

/-- Looks for the base of an extension among the global dictionaries. -/
def findBase (via : Via) (key path : String) : StateM (Store σ) (Except DatasetError Base) := do
  match ← findDictionary via globalDomain key with
  | .ok (some d) => checkBase path d
  | .ok none => return .error (.baseNotFound path)
  | .error e => return .error (.baseResolution path e.message)

/-! ### Extensions -/

/-- An extension that looks for its base at once. -/
def newExtension (domain : Int) (spec : DatasetSpec) (via : Via) : StateM (Store σ) Descriptor := do
  let key := Extension.baseKeyOf spec
  addExtension domain spec via (← findBase via key (extensionPath key))

/-- An extension of a given dictionary. -/
def extendDictionary (domain : Int) (base : Descriptor) (spec : DatasetSpec) :
    StateM (Store σ) Descriptor := do
  addExtension domain spec .default (← checkBase (extensionPath (Extension.baseKeyOf spec)) base)

/-- An extension of a domain, of a given dictionary or of one that it looks for. Nothing extends the
global domain. -/
def createExtension? (domain : Int) (spec : DatasetSpec) (via : Via) (base : Option Descriptor) :
    StateM (Store σ) (Option Descriptor) := do
  if domain < 1 then return none
  match base with
  | some base => return some (← extendDictionary domain base spec)
  | none => return some (← newExtension domain spec via)

/-- The base of an extension, looked up again until it is found. -/
def baseDictionary (id : Nat) : StateM (Store σ) (Except DatasetError Descriptor) := do
  match (← get).extension? id with
  | none => return .error (.baseNotFound "")
  | some x =>
    match x.base with
    | some base => return .ok base
    | none =>
      let found ← findBase x.via x.baseKey x.descriptor.path
      modify fun s =>
        match s.extension? id with
        | some x => s.setExtension id (x.resolved found)
        | none => s
      return found.map (·.descriptor)

/-- Builds the extension that a resolver describes. -/
def acceptExtension (domain : Int) : ExtensionReply → StateM (Store σ) (Option Descriptor)
  | .known d => return if d.kind = .extension then some d else none
  | .fresh spec via => return some (← newExtension domain spec via)

/-- The extension of a domain under a path, from its cache or the resolver. -/
def getExtension (r : Registry) (domain : Int) (path : String) :
    StateM (Store σ) (Except RegistryError (Option Descriptor)) := do
  let key := Text.lower path
  if domain < 1 ∨ key.isEmpty then return .ok none
  match (← lookup r domain key).filter (·.kind = .extension) with
  | some d =>
    emit r (.cacheHit domain)
    return .ok (some d)
  | none =>
    emit r (.cacheMiss domain)
    match r.link with
    | none => return .ok none
    | some link =>
      emit r (.resolverCall .extension domain)
      match ← onOutside (Outside.extension link.resolver domain key) with
      | .error e =>
        emit r (.resolverError .extension domain)
        return .error (.resolver e)
      | .ok none => return .ok none
      | .ok (some reply) =>
        match ← acceptExtension domain reply with
        | none => return .ok none
        | some d =>
          if d.domain ≠ domain then
            emit r (.discarded .extension domain)
            return .ok none
          else
            discard (register r d)
            return .ok (some d)

end TenantSchema.Store
