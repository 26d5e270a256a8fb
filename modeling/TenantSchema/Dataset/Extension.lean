import TenantSchema.Dataset.Error

/-!
# Extensions

An extension adds the fields of one domain to an extendable global dictionary, its base. Its field
list begins with the base's primary field, which is also its own primary and display field. Until
the base is found, the extension keeps the list it was defined with and the last failure.
-/

namespace TenantSchema

/-- The directory that holds the paths of all extensions. -/
def extensionsDir : String := "extensions"

def extensionPath (key : String) : String := extensionsDir ++ "/" ++ key

/-- A dictionary that can be extended, with its primary field. -/
structure Base where
  descriptor : Descriptor
  primary : FieldSpec
deriving DecidableEq, Repr

/-- A dictionary as a base: it is extendable and has a primary field. -/
def Base.check (path : String) (d : Descriptor) (primary : Option Field) :
    Except DatasetError Base :=
  match d.isExtendable, primary with
  | true, some f => .ok { descriptor := d, primary := f.spec }
  | _, _ => .error (.baseNotExtendable path)

structure Extension where
  /-- The name or path under which the base is looked up. -/
  baseKey : String
  /-- The fields as defined, before the base's primary is put in front. -/
  custom : List FieldSpec
  via : Via
  base : Option Descriptor
  failure : Option DatasetError
  dataset : Dataset
deriving Repr

namespace Extension

/-- The primary field and the custom ones, but none of the primary's name. -/
def merge (primary : FieldSpec) (custom : List FieldSpec) : List FieldSpec :=
  primary :: custom.filter fun f => !Text.eqFold f.id primary.id

def baseKeyOf (spec : DatasetSpec) : String := if spec.name.isEmpty then spec.path else spec.name

/-- The definition of the extension's dataset, with or without its base. -/
def datasetSpec (spec : DatasetSpec) : Except DatasetError Base → DatasetSpec
  | .ok base =>
    { spec with
      name := base.descriptor.name, path := extensionPath base.descriptor.name
      fields := merge base.primary spec.fields
      primary := base.primary.id, display := base.primary.id, extendable := false }
  | .error _ =>
    { spec with name := baseKeyOf spec, path := extensionPath (baseKeyOf spec), extendable := false }

/-- The extension, given what became of its base. -/
def ofSpec (id : Nat) (domain : Int) (spec : DatasetSpec) (via : Via)
    (found : Except DatasetError Base) : Extension :=
  { baseKey := baseKeyOf spec, custom := spec.fields, via
    base := found.toOption.map (·.descriptor)
    failure := match found with
      | .ok _ => none
      | .error e => some e
    dataset := .ofSpec id .extension domain (datasetSpec spec found) via }

def descriptor (x : Extension) : Descriptor := x.dataset.descriptor

def isResolved (x : Extension) : Bool := x.base.isSome

/-- What a new attempt to find the base does: success rebuilds the field list, failure is kept. -/
def resolved (x : Extension) : Except DatasetError Base → Extension
  | .ok base =>
    { x with
      base := some base.descriptor, failure := none
      dataset := x.dataset.resetFields (merge base.primary x.custom) base.primary.id
        base.primary.id x.via }
  | .error e => { x with failure := some e }

/-- The full definition, the inherited field included. -/
def toSpec (x : Extension) : DatasetSpec :=
  let spec := x.dataset.toSpec
  { spec with display := spec.primary }

/-- The editable definition: custom fields only. -/
def publicView (x : Extension) : DatasetSpec :=
  let spec := x.toSpec
  { spec with
    primary := "", display := ""
    fields :=
      if spec.primary.isEmpty then spec.fields
      else spec.fields.filter fun f => !Text.eqFold f.id spec.primary }

end Extension

end TenantSchema
