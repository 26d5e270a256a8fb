/-!
# Errors

The one shape in which every error leaves the library: a stable class, the part that raised it, a
code if a constraint was violated, and a message. What breaks down has no answer, not even an error.
-/

namespace TenantSchema

inductive ErrorClass where
  /-- A defect of a descriptor. -/
  | structural
  /-- A source that the target kind cannot represent. -/
  | conversion
  /-- A value beyond the bounds of its type. -/
  | constraintViolation
  /-- Keys of a cache that belong to distinct entries. -/
  | conflict
  | resolver
  | internal
deriving DecidableEq, Repr

def ErrorClass.name : ErrorClass → String
  | .structural => "structural"
  | .conversion => "conversion"
  | .constraintViolation => "constraint_violation"
  | .conflict => "conflict"
  | .resolver => "resolver"
  | .internal => "internal"

inductive ErrorOrigin where
  | type
  | dataset
  | record
  | cache
  | registry
  | resolver
deriving DecidableEq, Repr

def ErrorOrigin.name : ErrorOrigin → String
  | .type => "type"
  | .dataset => "dataset"
  | .record => "record"
  | .cache => "cache"
  | .registry => "registry"
  | .resolver => "resolver"

structure Error where
  errorClass : ErrorClass
  origin : ErrorOrigin
  code : Option String := none
  message : String
deriving DecidableEq, Repr

/-- What ends a call before it has an answer. -/
inductive Breakdown where
  /-- A negation has left its word. -/
  | overflow
  /-- References were followed within one another until the stack was used up. -/
  | exhausted
deriving DecidableEq, Repr

def Breakdown.message : Breakdown → String
  | .overflow => "arithmetic overflow"
  | .exhausted => "stack exhausted"

namespace Error

/-- An error of an external source of descriptors. -/
def ofResolver (message : String) : Error := { errorClass := .resolver, origin := .resolver, message }

def isViolation (e : Error) : Bool := e.errorClass == .constraintViolation

def isConflict (e : Error) : Bool := e.errorClass == .conflict

/-- Origin, class and code before the message. -/
def describe (e : Error) : String :=
  match e.code with
  | some code => e.origin.name ++ ":" ++ e.errorClass.name ++ ":" ++ code ++ ": " ++ e.message
  | none => e.origin.name ++ ":" ++ e.errorClass.name ++ ": " ++ e.message

end Error

end TenantSchema
