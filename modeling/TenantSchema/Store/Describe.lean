import TenantSchema.Store.Registry
import TenantSchema.Text.Quoted

/-!
# Descriptions

One-line descriptions of fields, datasets and registries, for diagnostics.
-/

namespace TenantSchema

open TenantSchema.Number

/-- A name and its members, of which there may be more. -/
def describeMembers (name : String) (members : List (String × String)) : String :=
  name ++ " \x7b " ++ String.join (members.map fun (k, v) => k ++ ": " ++ v ++ ", ") ++ ".. \x7d"

def boolText (b : Bool) : String := if b then "true" else "false"

def Field.describe (f : Field) : String :=
  describeMembers "Field" [("num", natText f.num), ("name", Text.quoted f.name),
    ("kind", f.kind.capitalized), ("version", natText f.version.toNat)]

def Fields.describe (fs : Fields) : String :=
  describeMembers "Fields" [("version", natText fs.version.toNat), ("len", natText fs.length)]

def Extension.describe (x : Extension) : String :=
  describeMembers "Extension" [("domain_id", intText x.descriptor.domain),
    ("path", Text.quoted x.descriptor.path), ("resolved", boolText x.isResolved),
    ("fields", x.dataset.fields.describe)]

def LookupType.describe {τ : Type} (l : LookupType) (w : World τ) : String :=
  describeMembers "LookupType" [("path", Text.quoted l.path), ("domain_id", intText l.domain),
    ("resolved", boolText (l.isResolved w))]

def RegistryConfig.describe (c : RegistryConfig) : String :=
  "RegistryConfig \x7b domain_capacity: " ++ natText c.domainCapacity.toNat ++
    ", global_capacity: " ++ natText c.globalCapacity.toNat ++ " \x7d"

namespace Store

variable {σ : Type}

def describeRegistry (r : Registry) (s : Store σ) : String :=
  describeMembers "Registry" [("config", (s.domainsOf r).config.describe),
    ("domains", natText (s.domainsOf r).size), ("resolver", boolText r.hasResolver)]

/-- A registry known but not held: only its caches matter. -/
def describeWeak (r : Registry) (s : Store σ) : String :=
  describeMembers "WeakRegistry" [("alive", boolText (!s.goneDomains.contains r.domains))]

/-- A dictionary shows its field list. -/
def describeDataset (id : Nat) (s : Store σ) : String :=
  match s.stored? id with
  | some (.extension x) => x.describe
  | some (.dictionary d) => d.fields.describe
  | none => ""

end Store

end TenantSchema
