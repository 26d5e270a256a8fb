import TenantSchema.Cache

/-!
# Registry errors

A registry passes on what its cache refuses and what its resolver reports. On leaving the library an
error of the resolver is itself again.
-/

namespace TenantSchema

inductive RegistryError where
  | cache (e : CacheError String)
  | resolver (e : Error)
deriving DecidableEq, Repr

namespace RegistryError

def errorClass : RegistryError → ErrorClass
  | .cache e => e.errorClass
  | .resolver e => e.errorClass

def message : RegistryError → String
  | .cache e => e.message
  | .resolver e => "resolver: " ++ e.message

def toError : RegistryError → Error
  | .cache e => { errorClass := e.errorClass, origin := .registry, message := e.message }
  | .resolver e => e

end RegistryError

end TenantSchema
