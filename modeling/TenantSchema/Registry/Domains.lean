import TenantSchema.Cache
import TenantSchema.Dataset.Basic
import TenantSchema.Registry.Config

/-!
# Caches by domain

One cache of descriptors per domain. The global cache always exists; the others come with their
first descriptor and go with their last.
-/

namespace TenantSchema

def globalDomain : Int := 0

abbrev DescriptorCache := Cache String Descriptor

structure Domains where
  config : RegistryConfig
  caches : List (Int × DescriptorCache)

namespace Domains

def newCache (config : RegistryConfig) (domain : Int) : DescriptorCache :=
  .empty (config.capacityFor domain).toNat Descriptor.indexKeys

def ofConfig (config : RegistryConfig) : Domains :=
  { config, caches := [(globalDomain, newCache config globalDomain)] }

def cache? (ds : Domains) (domain : Int) : Option DescriptorCache := ds.caches.lookup domain

def erase (ds : Domains) (domain : Int) : Domains :=
  { ds with caches := ds.caches.filter (·.1 ≠ domain) }

def setCache (ds : Domains) (domain : Int) (c : DescriptorCache) : Domains :=
  { ds with caches := (domain, c) :: (ds.erase domain).caches }

def size (ds : Domains) : Nat := ds.caches.length

/-- The descriptor that a name or path reaches in exactly this domain. -/
def lookup (ds : Domains) (domain : Int) (key : String) : Option Descriptor × Domains :=
  match ds.cache? domain with
  | none => (none, ds)
  | some c =>
    let (found, c) := c.get (Text.lower key)
    (found, ds.setCache domain c)

/-- Caches a descriptor in its own domain. -/
def register (ds : Domains) (d : Descriptor) : Except (CacheError String) Domains := do
  let c ← ((ds.cache? d.domain).getD (newCache ds.config d.domain)).add d
  return ds.setCache d.domain c

/-- Drops what the keys of a descriptor reach in its domain; nothing global is ever dropped. -/
def unregister (ds : Domains) (d : Descriptor) : Bool × Domains :=
  if d.domain < 1 then (false, ds)
  else
    match ds.cache? d.domain with
    | none => (false, ds)
    | some c =>
      let (removed, c) := c.delete d
      if removed && c.isEmpty then (true, ds.erase d.domain) else (removed, ds.setCache d.domain c)

/-- The global dictionaries, the least recently used first. -/
def globalDictionaries (ds : Domains) : List Descriptor :=
  match ds.cache? globalDomain with
  | none => []
  | some c => c.toList.filter (·.kind = .dictionary)

end Domains

end TenantSchema
