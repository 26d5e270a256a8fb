import Mathlib.Data.List.TakeWhile
import TenantSchema.Proofs.ExtensionKeys
import TenantSchema.Proofs.LowerCase

/-!
# What a resolved extension looks like

However an extension came by its base, its field list is the base's primary field with the custom
fields of other names behind it. That field is its key: it is found first under its own name, it is
what the full definition names, and it is all that the editable definition leaves out.
-/

namespace TenantSchema

/-- A path without a dot is the name of its field. -/
theorem displayHead_of_dotless {display : String} (h : '.' ∉ display.toList) :
    displayHead display = display := by
  have hall : display.toList.takeWhile (· ≠ '.') = display.toList := by
    rw [List.takeWhile_eq_self_iff]
    intro c hc
    simpa using fun hdot : c = '.' => h (hdot ▸ hc)
  rw [displayHead, hall, String.ofList_toList]

namespace Fields

/-- The primary field of a list has a name. -/
theorem PrimaryIs.name_ne_empty {fs : Fields} {f : Field} (h : fs.PrimaryIs f) :
    f.name.isEmpty = false := by
  obtain ⟨-, -, -, hname⟩ := indexed?_eq_some.mp h.pinned
  rw [Bool.eq_false_iff]
  intro hempty
  rw [String.isEmpty_iff.mp hempty, Text.lower_empty] at hname
  have hkey := h.named
  rw [Text.lower_eq_empty_iff.mp hname.symm] at hkey
  cases hkey

end Fields

namespace Extension

variable {x : Extension} {primary : FieldSpec}

/-- The display field is the first one unless the name of the key reads as a path. -/
theorem KeyedBy.displayField_first (h : x.KeyedBy primary) (hc : x.dataset.fields.Coherent)
    (hid : primary.id.isEmpty = false) (hdot : '.' ∉ primary.id.toList) :
    (Fields.displayField x.dataset.fields).1 = x.dataset.fields.fieldAt? 0 := by
  have hkey : x.dataset.fields.keys.display = primary.id := by
    rw [h.keys, FieldKeys.of, if_neg (Bool.not_eq_true _ ▸ hid)]
  rw [Fields.displayField_eq, hkey, hid, displayHead_of_dotless hdot]
  exact h.byName_first hc

/-- Customs of other names stay when they are merged again. -/
theorem filter_merge (primary : FieldSpec) (custom : List FieldSpec) :
    ((merge primary custom).filter fun c => !Text.eqFold c.id primary.id) =
      custom.filter fun c => !Text.eqFold c.id primary.id := by
  rw [merge, List.filter_cons_of_neg (by simp), List.filter_filter]
  simp

/-- The editable definition is the full one without its keys and its first field. -/
theorem KeyedBy.publicView_eq (h : x.KeyedBy primary) (hid : primary.id.isEmpty = false) :
    x.publicView =
      { x.toSpec with primary := "", display := "", fields := x.toSpec.fields.tail } := by
  have hspecs : x.toSpec.fields = merge primary x.custom := h.specs
  have hkey : x.toSpec.primary = primary.id := congrArg FieldKeys.primary h.keys
  unfold publicView
  dsimp only
  rw [hkey, hid, if_neg Bool.false_ne_true, hspecs, filter_merge]
  rfl

end Extension

namespace Store

variable {σ : Type}

/-- The extension stored under this number, beside its base and the primary field of that. -/
structure Shaped (s : Store σ) (id : Nat) (x : Extension) (base : Descriptor) (f : Field) :
    Prop where
  shared : base.domain = globalDomain
  extendable : base.extendable = true
  primary : (onFields base.id Fields.primaryField s).1 = some f
  specs : x.dataset.fields.specs = f.spec :: x.custom.filter fun c => !Text.eqFold c.id f.name
  unshadowed : ∀ c ∈ x.dataset.fields.specs.tail, Text.eqFold c.id f.name = false
  /-- The first field is the primary one, and the display field unless its name is a path. -/
  first : ∃ g, (onFields id (Fields.get 0) s).1 = some g ∧ g.spec = f.spec ∧
    (onFields id Fields.primaryField s).1 = some g ∧
    ('.' ∉ f.name.toList → (onFields id Fields.displayField s).1 = some g)
  exported : x.toSpec.fields = x.dataset.fields.specs ∧ x.toSpec.primary = f.name ∧
    x.toSpec.display = f.name
  shown : x.publicView =
    { x.toSpec with primary := "", display := "", fields := x.toSpec.fields.tail }

/-- What has its base is shaped by it. -/
theorem Rooted.shaped {s : Store σ} (h : s.Rooted) {id : Nat} {x : Extension}
    (hx : s.extension? id = some x) {dict : Dataset} (hbase : x.base = some dict.descriptor)
    (hdict : s.stored? dict.descriptor.id = some (.dictionary dict)) :
    ∃ f, s.Shaped id x dict.descriptor f := by
  obtain ⟨hext, f, hf, hkeyed⟩ := h.keyed_of_heir hx hbase hdict
  have hstored := extension?_eq_some.mp hx
  have hc : x.dataset.fields.Coherent := (h.sound _ _ hstored).coherent
  have hid : f.spec.id.isEmpty = false := hf.name_ne_empty
  obtain ⟨g, hg, -, hgspec⟩ := hkeyed.fieldAt?_zero
  have honFields {α : Type} [Inhabited α] (step : StateM Fields α) :
      (onFields id step s).1 = (step x.dataset.fields).1 := by
    rw [onFields_eq, hstored]
    rfl
  obtain ⟨hlow, hflag⟩ := Bool.and_eq_true_iff.mp hext
  refine ⟨f, ?_, hflag, ?_, hkeyed.specs, ?_, ⟨g, ?_, hgspec, ?_, fun hdot => ?_⟩, ⟨rfl, ?_, ?_⟩,
    hkeyed.publicView_eq hid⟩
  · have hplaced : 0 ≤ dict.descriptor.domain := (h.grounded _ _ hdict).placed
    have hlow : dict.descriptor.domain < 1 := of_decide_eq_true hlow
    show dict.descriptor.domain = 0
    omega
  · rw [onFields_eq, hdict]
    show (Fields.primaryField dict.fields).1 = some f
    rw [hf.answer]
  · intro c hc
    rw [hkeyed.specs] at hc
    have hother : (!Text.eqFold c.id f.name) = true := (List.mem_filter.mp hc).2
    simpa using hother
  · rw [honFields, (hc.get 0).1, hg]
  · rw [honFields, hkeyed.primaryField_first hc hid, hg]
  · rw [honFields, hkeyed.displayField_first hc hid hdot, hg]
  · exact congrArg FieldKeys.primary hkeyed.keys
  · exact congrArg FieldKeys.primary hkeyed.keys

end Store

/-- In every scene, whatever dictionaries the lookups have answered: an extension that has found its
base, which is a dictionary of the scene, extends a global one that allows it, and has the fields,
the keys and the definitions that the primary field of that and its own fields make. -/
theorem resolved_extension_shaped {σ : Type} [Outside σ] (outside : σ) (calls : List (SceneCall σ))
    (s : Scene σ) (hs : s = after Scene.step calls (Scene.start outside)) (id : Nat)
    (x : Extension) (hx : s.world.store.extension? id = some x) (dict : Dataset)
    (hbase : x.base = some dict.descriptor)
    (hdict : s.world.store.stored? dict.descriptor.id = some (.dictionary dict)) :
    ∃ f, s.world.store.Shaped id x dict.descriptor f := by
  subst hs
  exact (Scene.rooted_after outside calls).shaped hx hbase hdict

/-! ### A custom field with the name of the key -/

namespace ShadowedKey

def contacts : DatasetSpec :=
  { name := "contacts", path := "contacts"
    fields := [.ofKind "id" (.signed .int), .ofKind "city" (.text .string)], primary := "ID"
    extendable := true }

def base : Descriptor := (Dataset.ofSpec 0 .dictionary 0 contacts .nowhere).descriptor

/-- It has a key of its own, and a field for the key of the base. -/
def vip : DatasetSpec :=
  { name := "contacts", fields := [.ofKind "vip" .bool, .ofKind "Id" .bool], primary := "vip" }

def calls : List (SceneCall Directory) :=
  [.addDictionary 0 contacts .nowhere, .createExtension 7 vip .nowhere (some base)]

def scene : Scene Directory := after Scene.step calls (Scene.start {})

theorem extension_there : (scene.world.store.extension? 1).isSome = true := by decide +kernel

theorem base_there :
    ∃ dict, scene.world.store.stored? base.id = some (.dictionary dict) ∧ dict.descriptor = base := by
  obtain ⟨dict, hdict⟩ : ∃ dict, scene.world.store.stored? base.id = some (.dictionary dict) :=
    Store.exists_dictionary (by decide +kernel) (by decide +kernel)
  have hdescriptor : (scene.world.store.stored? base.id).map (·.dataset.descriptor) =
      some base := by
    decide +kernel
  rw [hdict] at hdescriptor
  exact ⟨dict, hdict, Option.some.inj hdescriptor⟩

end ShadowedKey

open ShadowedKey in
theorem shadowed_key_shaped :
    ∃ x f, scene.world.store.extension? 1 = some x ∧ x.dataset.fields.names = ["id", "vip"] ∧
      scene.world.store.Shaped 1 x base f := by
  have hx := (Option.some_get extension_there).symm
  have hnames : (Option.get _ extension_there).dataset.fields.names = ["id", "vip"] := by
    decide +kernel
  have hbase : (Option.get _ extension_there).base = some base := by decide +kernel
  obtain ⟨dict, hdict, hdescriptor⟩ := base_there
  rw [← hdescriptor] at hbase hdict ⊢
  have hscene : scene = after Scene.step calls (Scene.start {}) := by
    unfold scene
    rfl
  obtain ⟨f, hf⟩ := resolved_extension_shaped ({} : Directory) calls scene hscene 1 _ hx dict hbase
    hdict
  exact ⟨_, f, hx, hnames, hf⟩

end TenantSchema
