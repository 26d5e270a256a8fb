import TenantSchema.Dataset.Basic
import TenantSchema.Text.Word
import TenantSchema.Type.Error

/-!
# Dataset errors

What is wrong with a dataset: issues of its fields and keys, collected under the field's name or
under a key for the dataset itself, or the base of an extension that cannot be had. A check that has
broken down reports none of these.
-/

namespace TenantSchema

inductive Issue where
  | badName (field : String)
  | duplicate (field : String)
  | badType (field : String) (e : TypeError)
  | primaryMissing (field : String)
  | displayMissing (path : String)
deriving DecidableEq, Repr

/-- The key of the issues that belong to no field. -/
def datasetIssueKey : String := "dataset"

namespace Issue

def key : Issue → String
  | .badName field => field
  | .duplicate field => field
  | .badType field _ => field
  | .primaryMissing _ => datasetIssueKey
  | .displayMissing _ => datasetIssueKey

/-- How the check of a type has broken down. -/
def breakdown? : Issue → Option Breakdown
  | .badType _ e => e.breakdown?
  | _ => none

def message : Issue → String
  | .badName field => "fields( name: " ++ Text.quoted field ++ " ); invalid name"
  | .duplicate field => "fields( name: " ++ field ++ " ); duplicate"
  | .badType field e => "fields( name: " ++ field ++ " ); " ++ e.message
  | .primaryMissing field => "primary( field: " ++ field ++ " ); not found"
  | .displayMissing path => "display( field: " ++ path ++ " ); not found"

end Issue

/-- Issues by key, the keys in order. -/
abbrev Issues := List (String × List Issue)

namespace Issues

/-- Adds an issue behind those with its key. -/
def insert (i : Issue) : Issues → Issues
  | [] => [(i.key, [i])]
  | (key, issues) :: rest =>
    if i.key = key then (key, issues ++ [i]) :: rest
    else if i.key < key then (i.key, [i]) :: (key, issues) :: rest
    else (key, issues) :: insert i rest

def ofList (issues : List Issue) : Issues := issues.foldl (fun m i => insert i m) []

/-- All issues in the order of their keys. -/
def summary (m : Issues) : String :=
  "; ".intercalate (m.flatMap fun (key, issues) => issues.map fun i => key ++ ": " ++ i.message)

end Issues

inductive DatasetError where
  | invalid (dataset : String) (issues : Issues)
  | baseNotFound (path : String)
  | baseNotExtendable (path : String)
  | baseResolution (path message : String)
  /-- Nothing is reported: the call has broken down. -/
  | breakdown (b : Breakdown)
deriving DecidableEq, Repr

namespace DatasetError

def breakdown? : DatasetError → Option Breakdown
  | .breakdown b => some b
  | _ => none

def errorClass : DatasetError → ErrorClass
  | .invalid .. => .structural
  | .baseNotFound _ => .structural
  | .baseNotExtendable _ => .structural
  | .baseResolution .. => .resolver
  | .breakdown _ => .internal

def message : DatasetError → String
  | .invalid dataset issues => "dataset " ++ Text.quoted dataset ++ " invalid: " ++ issues.summary
  | .baseNotFound path => "extension " ++ Text.quoted path ++ "; base type not found"
  | .baseNotExtendable path => "extension " ++ Text.quoted path ++ "; base type not extendable"
  | .baseResolution path message =>
    "extension " ++ Text.quoted path ++ "; base type resolution failed: " ++ message
  | .breakdown b => b.message

def toError (e : DatasetError) : Error :=
  { errorClass := e.errorClass, origin := .dataset, message := e.message }

end DatasetError

/-! ### Issues of a field list -/

/-- What is wrong with a field, given the fields before it and the error of its type. -/
def fieldIssues (earlier : List Field) (f : Field) (typeError : Option TypeError) : List Issue :=
  (if Text.isWord f.name then [] else [.badName f.name]) ++
  (if earlier.any (Text.eqFold ·.name f.name) then [.duplicate f.name] else []) ++
  (typeError.map (.badType f.name)).toList

/-- What is wrong with the fields, `earlier` being those already passed. -/
def fieldListIssues (earlier : List Field) : List (Field × Option TypeError) → List Issue
  | [] => []
  | (f, typeError) :: rest =>
    fieldIssues earlier f typeError ++ fieldListIssues (earlier ++ [f]) rest

/-- What is wrong with the keys: a name that is given needs its field. -/
def keyIssues (keys : FieldKeys) (primary display : Option Field) : List Issue :=
  (if !keys.primary.isEmpty && primary.isNone then [.primaryMissing keys.primary] else []) ++
  (if !keys.display.isEmpty && display.isNone then [.displayMissing keys.display] else [])

/-- No issues, or the error that lists them. If the check of a type has broken down, so has the
whole. -/
def DatasetError.check (dataset : String) (issues : List Issue) : Except DatasetError Unit :=
  match issues.findSome? Issue.breakdown? with
  | some b => .error (.breakdown b)
  | none => if issues.isEmpty then .ok () else .error (.invalid dataset (.ofList issues))

end TenantSchema
