import TenantSchema.Dataset.Basic

/-!
# Events of a registry

Every observation of a registry is an event. Counters count events by name and stay at their limit;
a listener hears them in order.
-/

namespace TenantSchema

def DatasetKind.name : DatasetKind → String
  | .dictionary => "dictionary"
  | .extension => "extension"

inductive Event where
  | cacheHit (domain : Int)
  | cacheMiss (domain : Int)
  | resolverCall (kind : DatasetKind) (domain : Int)
  | resolverError (kind : DatasetKind) (domain : Int)
  /-- A resolved dataset belongs to another domain than the one asked for. -/
  | discarded (kind : DatasetKind) (domain : Int)
  | registered (domain : Int)
  | unregistered (domain : Int)
  | conflict (domain : Int)
deriving DecidableEq, Repr

namespace Event

def name : Event → String
  | .cacheHit _ => "cache_hit"
  | .cacheMiss _ => "cache_miss"
  | .resolverCall .. => "resolver_call"
  | .resolverError .. => "resolver_error"
  | .discarded .. => "discarded"
  | .registered _ => "registered"
  | .unregistered _ => "unregistered"
  | .conflict _ => "conflict"

def domain : Event → Int
  | .cacheHit d | .cacheMiss d | .resolverCall _ d | .resolverError _ d | .discarded _ d
  | .registered d | .unregistered d | .conflict d => d

/-- What kind of dataset a resolver was asked for. -/
def kind? : Event → Option DatasetKind
  | .resolverCall k _ | .resolverError k _ | .discarded k _ => some k
  | _ => none

end Event

structure Counters where
  hits : UInt64 := 0
  misses : UInt64 := 0
  resolverCalls : UInt64 := 0
  resolverErrors : UInt64 := 0
  discarded : UInt64 := 0
  registered : UInt64 := 0
  unregistered : UInt64 := 0
  conflicts : UInt64 := 0
deriving DecidableEq, Repr

/-- One more, unless the counter is full. -/
def bump (n : UInt64) : UInt64 := if n + 1 = 0 then n else n + 1

def Counters.record (c : Counters) : Event → Counters
  | .cacheHit _ => { c with hits := bump c.hits }
  | .cacheMiss _ => { c with misses := bump c.misses }
  | .resolverCall .. => { c with resolverCalls := bump c.resolverCalls }
  | .resolverError .. => { c with resolverErrors := bump c.resolverErrors }
  | .discarded .. => { c with discarded := bump c.discarded }
  | .registered _ => { c with registered := bump c.registered }
  | .unregistered _ => { c with unregistered := bump c.unregistered }
  | .conflict _ => { c with conflicts := bump c.conflicts }

end TenantSchema
