import TenantSchema.Spec.Reader
import TenantSchema.Toml.Document

/-!
# Registry configuration

How many descriptors the cache of a domain holds. The settings stand in the table `registry` of a
TOML document, and unknown settings are refused.
-/

namespace TenantSchema

def defaultCapacity : UInt64 := 256

structure RegistryConfig where
  /-- Capacity of every domain but the global one. -/
  domainCapacity : UInt64 := defaultCapacity
  globalCapacity : UInt64 := defaultCapacity
deriving DecidableEq, Repr

namespace RegistryConfig

def capacityFor (c : RegistryConfig) (domain : Int) : UInt64 :=
  if domain < 1 then c.globalCapacity else c.domainCapacity

def memberNames : List String := ["domain_capacity", "global_capacity"]

def ofWire? (w : Wire) : Option RegistryConfig := do
  let m ← readMembers? memberNames w
  if m.any fun e => !memberNames.contains e.1 then none
  else
    return { domainCapacity := ← readMember? readUInt64? defaultCapacity m "domain_capacity"
             globalCapacity := ← readMember? readUInt64? defaultCapacity m "global_capacity" }

/-- The settings of a document; a missing table leaves the defaults. -/
def ofToml? (text : String) : Option RegistryConfig := do
  let document ← Toml.read? text
  readMember? ofWire? {} document "registry"

end RegistryConfig

end TenantSchema
