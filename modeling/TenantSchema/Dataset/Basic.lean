import TenantSchema.Dataset.Fields

/-!
# Datasets

A dataset is a fixed descriptor and a field list. Dictionaries describe shared entities; extensions
belong to a domain and add fields to a dictionary. The domain zero is global.
-/

namespace TenantSchema

inductive DatasetKind where
  | dictionary
  | extension
deriving DecidableEq, Repr

/-- The fixed part of a dataset. Descriptors with one `id` belong to one dataset. -/
structure Descriptor where
  id : Nat
  kind : DatasetKind
  domain : Int
  name : String
  path : String
  title : String := ""
  usage : String := ""
  extendable : Bool := false
deriving DecidableEq, Repr

namespace Descriptor

/-- A domain cannot change global datasets. -/
def isReadonly (d : Descriptor) : Bool := d.domain < 1

/-- Other domains may attach fields. -/
def isExtendable (d : Descriptor) : Bool := d.isReadonly && d.extendable

/-- The keys of a cache entry: name and path in lower case, neither empty nor repeated. -/
def indexKeys (d : Descriptor) : List String :=
  ([Text.lower d.name, Text.lower d.path].filter (!·.isEmpty)).eraseDups

end Descriptor

structure Dataset where
  descriptor : Descriptor
  fields : Fields
deriving Repr

/-- What the types of a dataset's fields need from it. -/
def TypeContext.ofDataset (domain : Int) (path : String) (specs : List FieldSpec)
    (keys : FieldKeys) (via : Via) : TypeContext :=
  { domain, ownerPath := path, via
    ownerPrimary := specs.find? fun f => keys.isPrimary f.id }

namespace Dataset

/-- A dataset by its definition; negative domains are the global one. -/
def ofSpec (id : Nat) (kind : DatasetKind) (domain : Int) (spec : DatasetSpec) (via : Via) :
    Dataset :=
  let domain := max domain 0
  let keys := FieldKeys.of spec.primary spec.display
  { descriptor :=
      { id, kind, domain, name := spec.name, path := spec.path, title := spec.title
        usage := spec.usage, extendable := spec.extendable }
    fields := .ofSpecs id spec.fields keys (.ofDataset domain spec.path spec.fields keys via) }

/-- Replaces the field definitions. -/
def resetFields (d : Dataset) (specs : List FieldSpec) (primary display : String) (via : Via) :
    Dataset :=
  let keys := FieldKeys.of primary display
  let context := .ofDataset d.descriptor.domain d.descriptor.path specs keys via
  { d with fields := d.fields.reset specs keys context }

/-- The definition of the dataset as it is now. -/
def toSpec (d : Dataset) : DatasetSpec :=
  { name := d.descriptor.name, path := d.descriptor.path, title := d.descriptor.title
    usage := d.descriptor.usage, fields := d.fields.specs, primary := d.fields.keys.primary
    display := d.fields.keys.display, extendable := d.descriptor.extendable }

end Dataset

end TenantSchema
