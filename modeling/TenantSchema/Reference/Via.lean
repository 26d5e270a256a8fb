/-!
# Ways to a dictionary

A reference names a dictionary by path. Where it is looked up is part of the dataset that holds the
reference: in a registry, which the dataset keeps alive or merely knows, in a table, or nowhere.
-/

namespace TenantSchema

/-- One installation of an external resolver in a registry. -/
structure ResolverLink where
  id : Nat
  resolver : Nat
deriving DecidableEq, Repr

/-- A registry as its holders see it: the caches and counters that it shares with its copies, the
resolver that it falls back to, and a listener for its events. -/
structure Registry where
  domains : Nat
  metrics : Nat
  link : Option ResolverLink := none
  sink : Option Nat := none
deriving DecidableEq, Repr

namespace Registry

/-- The registry of all datasets that name no other. -/
def default : Registry := { domains := 0, metrics := 0 }

def hasResolver (r : Registry) : Bool := r.link.isSome

end Registry

inductive Via where
  | default
  | nowhere
  | strong (registry : Registry)
  /-- Finds nothing once the registry is gone. -/
  | weak (registry : Registry)
  | table (id : Nat)
deriving DecidableEq, Repr

end TenantSchema
