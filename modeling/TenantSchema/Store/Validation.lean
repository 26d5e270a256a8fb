import TenantSchema.Store.Registry
import TenantSchema.Type.Decode

/-!
# Validation of datasets

A dataset is valid if its fields have distinct names, its types are well formed with references that
resolve, and its keys name fields. All that is wrong is reported together. An extension also needs
its base, which has to be valid itself.
-/

namespace TenantSchema.World

variable {σ : Type} [Outside σ]

/-- A step of the field list of a dataset. -/
def onFields {α : Type} [Inhabited α] (id : Nat) (step : StateM Fields α) :
    StateM (World (Store σ)) α :=
  onStore (Store.onFields id step)

/-- The fields with the errors of their types. -/
def typeErrors : List Field → StateM (World (Store σ)) (List (Field × Option TypeError))
  | [] => return []
  | f :: rest => do
    let e := match ← f.type.validateDescriptor.run with
      | .ok () => none
      | .error e => some e
    return (f, e) :: (← typeErrors rest)

/-- All that is wrong with the fields and keys of a dataset. -/
def datasetIssues (id : Nat) : StateM (World (Store σ)) (List Issue) := do
  let checked ← typeErrors (← onFields id Fields.toList)
  let keys := (((← get).store.fields? id).map (·.keys)).getD {}
  let primary ← onFields id Fields.primaryField
  let display ← onFields id Fields.displayField
  return fieldListIssues [] checked ++ keyIssues keys primary display

/-- Checks the fields and keys of a dataset, whatever its kind. -/
def validateFields (d : Descriptor) : StateM (World (Store σ)) (Except DatasetError Unit) := do
  return DatasetError.check d.path (← datasetIssues d.id)

def validate (d : Descriptor) : StateM (World (Store σ)) (Except DatasetError Unit) := do
  match d.kind with
  | .dictionary => validateFields d
  | .extension =>
    match ← onStore (Store.baseDictionary d.id) with
    | .error e => return .error e
    | .ok base =>
      match ← validateFields base with
      | .error e => return .error e
      | .ok () => validateFields d

end TenantSchema.World
