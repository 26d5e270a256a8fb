import TenantSchema.Proofs.ExtensionKeys
import TenantSchema.Proofs.ReferenceIds
import TenantSchema.Proofs.ValidDatasets

/-!
# Inherited keys

An extension is keyed by a copy of its base's primary field, whose type is made anew for the
extension. A type that refers to nothing is the same there. A reference is looked up from where the
extension is, and that may lead to another dictionary: the keys then decode alike exactly if both
dictionaries take the same ids.
-/

namespace TenantSchema

/-! ### Keys of both -/

/-- The field by which an extension is keyed is its first one. -/
theorem Extension.KeyedBy.primaryField {x : Extension} {primary : FieldSpec}
    (h : x.KeyedBy primary) (hc : x.dataset.fields.Coherent) (hid : primary.id.isEmpty = false) :
    ∃ f, (Fields.primaryField x.dataset.fields).1 = some f ∧ f.num = 1 ∧ f.spec = primary := by
  obtain ⟨f, hf, hnum, hspec⟩ := h.fieldAt?_zero
  exact ⟨f, (h.primaryField_first hc hid).trans hf, hnum, hspec⟩

/-- In every scene, the key of an extension is the first of its fields and defined as the key of its
valid base is. It has the same type unless that is of references, and it decodes every source alike
exactly if the references of both take the same ids. -/
theorem inherited_key_decodes_alike {σ : Type} [Outside σ] (outside : σ)
    (calls : List (SceneCall σ)) (s : Scene σ) (hs : s = after Scene.step calls (Scene.start outside))
    (id : Nat) (x : Extension) (hx : s.world.store.extension? id = some x) (base : Descriptor)
    (hbase : x.base = some base) (dict : Dataset)
    (hdict : s.world.store.stored? base.id = some (.dictionary dict))
    (hvalid : (World.validate base s.world).1 = .ok ()) :
    ∃ f g, (Store.onFields id Fields.primaryField s.world.store).1 = some f ∧
      (Store.onFields base.id Fields.primaryField s.world.store).1 = some g ∧
      f.num = 1 ∧ f.spec = g.spec ∧ (f.type.reference? = none → f.type = g.type) ∧
      ∀ w : World (Store σ), (∀ source, f.type.DecodesAs g.type w source) ↔
        ∀ l l', f.type.reference? = some l → g.type.reference? = some l' → l.TakesAs l' w := by
  have hkeyed : s.world.store.Keyed := hs ▸ Scene.keyed_after outside calls
  have hstored := Store.extension?_eq_some.mp hx
  obtain ⟨hdist, hwords⟩ := World.distinct_of_validateFields hkeyed.sound hdict
    (World.validateFields_of_validate hdict hvalid)
  obtain ⟨d, hd, hinherits⟩ := hkeyed.heirs hx hbase
  rw [hdict] at hd
  obtain ⟨primary, hprimary, hkey⟩ := hinherits dict (Option.some.inj hd).symm hdist
  -- the base's own key
  have hcg : dict.fields.Coherent := (hkeyed.sound _ _ hdict).coherent
  obtain ⟨g, hg, hgspec⟩ := Option.map_eq_some_iff.mp
    ((hcg.primaryField_spec (hdist.unambiguous _)).trans hprimary)
  -- a proper name is not empty
  have hmem : primary ∈ dict.fields.specs := by
    unfold Fields.primarySpec? at hprimary
    split at hprimary
    · cases hprimary
    · exact List.mem_of_find?_eq_some hprimary
  have hid : primary.id.isEmpty = false := by
    rw [Bool.eq_false_iff]
    intro hempty
    have hword := hwords primary hmem
    rw [String.isEmpty_iff.mp hempty] at hword
    cases hword
  have hcf : x.dataset.fields.Coherent := (hkeyed.sound _ _ hstored).coherent
  obtain ⟨f, hf, hnum, hfspec⟩ := hkey.primaryField hcf hid
  have htypef : f.type = .ofSpec f.cell primary f.context := by rw [← hfspec]; rfl
  have htypeg : g.type = .ofSpec g.cell primary g.context := by rw [← hgspec]; rfl
  refine ⟨f, g, ?_, ?_, hnum, hfspec.trans hgspec.symm, ?_, ?_⟩
  · rw [Store.onFields_eq, hstored]
    exact hf
  · rw [Store.onFields_eq, hdict]
    exact hg
  · rw [htypef, htypeg]
    exact FieldType.ofSpec_eq_of_no_reference
  · intro w
    rw [htypef, htypeg]
    exact FieldType.ofSpec_alike_iff primary f.cell g.cell f.context g.context w

/-! ### Contacts by city -/

namespace ShadowedCities

/-- All datasets are in one registry. -/
def registry : Registry := { domains := 1, metrics := 1 }

def via : Via := .weak registry

/-- Cities are known by a number, but the tenant has cities of its own, known by name. -/
def cities : DatasetSpec :=
  { name := "cities", path := "cities", fields := [.ofKind "id" (.signed .int)], primary := "id" }

def ownCities : DatasetSpec := { cities with fields := [.ofKind "id" (.text .string)] }

/-- Contacts are known by their city. -/
def contacts : DatasetSpec :=
  { name := "contacts", path := "contacts", fields := [.ofType "city" (.lookup "cities")]
    primary := "city", extendable := true }

def vip : DatasetSpec := { name := "contacts", fields := [.ofKind "vip" .bool] }

def base : Descriptor := (Dataset.ofSpec 2 .dictionary 0 contacts via).descriptor

def calls : List (SceneCall Directory) :=
  [.addRegistry {}, .addDictionary 0 cities via, .addDictionary 7 ownCities via,
    .addDictionary 0 contacts via,
    .registry (.register registry (Dataset.ofSpec 0 .dictionary 0 cities via).descriptor),
    .registry (.register registry (Dataset.ofSpec 1 .dictionary 7 ownCities via).descriptor),
    .registry (.register registry base), .createExtension 7 vip via none]

def scene : Scene Directory := after Scene.step calls (Scene.start {})

/-- The primary field of a dataset. -/
def key (id : Nat) : Option Field := (Store.onFields id Fields.primaryField scene.world.store).1

def berlin : Source := .wire (.string "Berlin")

theorem extension_there : (scene.world.store.extension? 3).isSome = true := by decide +kernel

theorem base_there : ∃ dict, scene.world.store.stored? 2 = some (.dictionary dict) :=
  Store.exists_dictionary (by decide +kernel) (by decide +kernel)

theorem extension_key_there : (key 3).isSome = true := by decide +kernel

theorem base_key_there : (key 2).isSome = true := by decide +kernel

theorem contacts_valid : (World.validate base scene.world).1 = .ok () := by decide +kernel

end ShadowedCities

open ShadowedCities in
theorem contacts_key_decodes_alike_iff :
    ∃ f g, key 3 = some f ∧ key 2 = some g ∧ f.num = 1 ∧ f.spec = g.spec ∧
      (f.type.reference? = none → f.type = g.type) ∧
      ∀ w : World (Store Directory), (∀ source, f.type.DecodesAs g.type w source) ↔
        ∀ l l', f.type.reference? = some l → g.type.reference? = some l' → l.TakesAs l' w := by
  have hx := (Option.some_get extension_there).symm
  have hbase : (Option.get _ extension_there).base = some base := by decide +kernel
  obtain ⟨dict, hdict⟩ := base_there
  have hscene : scene = after Scene.step calls (Scene.start {}) := by
    unfold scene
    rfl
  exact inherited_key_decodes_alike ({} : Directory) calls scene hscene 3 _ hx base hbase dict hdict
    contacts_valid

open ShadowedCities in
/-- The base is valid and the extension has found it, but the key of the extension takes a city by
the name that it has for the tenant, and the key of the base does not. -/
theorem shadowed_key_differs :
    (World.validate base scene.world).1 = .ok () ∧
      (scene.world.store.extension? 3).map (·.base) = some (some base) ∧
      ∃ f g, key 3 = some f ∧ key 2 = some g ∧ ¬ f.type.DecodesAs g.type scene.world berlin := by
  have hbase : (scene.world.store.extension? 3).map (·.base) = some (some base) := by
    decide +kernel
  refine ⟨contacts_valid, hbase, _, _, (Option.some_get extension_key_there).symm,
    (Option.some_get base_key_there).symm, fun h => ?_⟩
  have hsome : (((((key 3).get extension_key_there).type.decode berlin :
      Decoding (Store Directory) Value).run scene.world).1.toOption).isSome = true := by
    decide +kernel
  have hnone : (((((key 2).get base_key_there).type.decode berlin :
      Decoding (Store Directory) Value).run scene.world).1.toOption).isSome = false := by
    decide +kernel
  rw [h, hnone] at hsome
  cases hsome

end TenantSchema
