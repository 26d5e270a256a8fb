import TenantSchema.Proofs.BaseProgress
import TenantSchema.Proofs.ResolvedExtensions
import TenantSchema.Store.Directory

/-!
# Extensions made again from their definitions

Both definitions of an extension, the full and the editable one, make the same extension again on the
same base: the base's primary field is put in front of a list that has it already, or has lost it.
It is the same field each time, even of a base in which several fields have its name, as the first
extension has been given it.
-/

namespace TenantSchema

namespace Extension

variable {base : Base} {domain : Int} {spec spec' : DatasetSpec} {via via' : Via} {id id' : Nat}

/-- Merging once more adds nothing and loses nothing. -/
theorem merge_merge (primary : FieldSpec) (custom : List FieldSpec) :
    merge primary (merge primary custom) = merge primary custom :=
  congrArg (primary :: ·) (filter_merge primary custom)

theorem merge_filter (primary : FieldSpec) (custom : List FieldSpec) :
    merge primary ((merge primary custom).filter fun c => !Text.eqFold c.id primary.id) =
      merge primary custom := by
  rw [filter_merge, merge, List.filter_filter]
  simp only [Bool.and_self]
  rfl

/-- An extension of a given base takes its title, its usage and its own fields from its definition,
and the rest from the base. -/
theorem toSpec_ofSpec : (ofSpec id domain spec via (.ok base)).toSpec =
    { name := base.descriptor.name, path := extensionPath base.descriptor.name
      title := spec.title, usage := spec.usage, fields := merge base.primary spec.fields
      primary := base.primary.id, display := base.primary.id, extendable := false } := rfl

/-- The extension that either definition of another one makes is defined like that one. -/
theorem toSpec_remade :
    let x := ofSpec id domain spec via (.ok base)
    (ofSpec id' domain x.toSpec via' (.ok base)).toSpec = x.toSpec ∧
      (ofSpec id' domain x.publicView via' (.ok base)).toSpec = x.toSpec := by
  intro x
  have hfull : merge base.primary x.toSpec.fields = merge base.primary spec.fields :=
    merge_merge base.primary spec.fields
  have hcut : merge base.primary x.publicView.fields = merge base.primary spec.fields := by
    show merge base.primary (if base.primary.id.isEmpty then merge base.primary spec.fields
      else (merge base.primary spec.fields).filter fun c => !Text.eqFold c.id base.primary.id) = _
    split
    · exact hfull
    · exact merge_filter base.primary spec.fields
  constructor
  · rw [toSpec_ofSpec, hfull]
    rfl
  · rw [toSpec_ofSpec, hcut]
    rfl

end Extension

namespace Store

variable {σ : Type} {s s' : Store σ} {id : Nat} {d : StoredDataset} {domain : Int}
  {base : Descriptor} {primary : FieldSpec}

/-- A resolved extension begins with what its base answers when it is asked for its primary field. -/
theorem Rooted.primary_of_heir (h : s.Rooted) {x : Extension} (hx : s.extension? id = some x)
    (hbase : x.base = some base) {dict : Dataset}
    (hdict : s.stored? base.id = some (.dictionary dict)) :
    (onFields base.id Fields.primaryField s).1.map (·.spec) = x.dataset.fields.specs.head? := by
  obtain ⟨-, f, hf, hkeyed⟩ := h.keyed_of_heir hx hbase hdict
  rw [onFields_eq, hdict, hkeyed.specs]
  show (Fields.primaryField dict.fields).1.map (·.spec) = some f.spec
  rw [hf.answer]
  rfl

/-- A dictionary stays one. -/
theorem Advances.exists_dictionary (h : s.Advances s') (hs : s.Sound) {dict : Dataset}
    (hdict : s.stored? id = some (.dictionary dict)) :
    ∃ dict', s'.stored? id = some (.dictionary dict') := by
  obtain ⟨d', hd', hrest⟩ := h.dictionary hs hdict
  cases d' with
  | dictionary dict' => exact ⟨dict', hd'⟩
  | extension x =>
    have hmade := hrest.made
    cases hmade

theorem checkBase_of_primary (hext : base.isExtendable = true)
    (hprimary : (onFields base.id Fields.primaryField s).1.map (·.spec) = some primary)
    (path : String) : (checkBase path base s).1 = .ok ⟨base, primary⟩ := by
  obtain ⟨f, hf, rfl⟩ := Option.map_eq_some_iff.mp hprimary
  unfold checkBase
  rw [hext, if_pos rfl, bind_apply, hf]
  show Base.check path base (some f) = _
  unfold Base.check
  rw [hext]

variable [Outside σ]

/-- An extension made of a given dictionary. -/
def extended (domain : Int) (base : Descriptor) (spec : DatasetSpec) :
    StateM (Store σ) (Option Extension) := do
  let made ← createExtension? domain spec .default (some base)
  return made.bind ((← get).extension? ·.id)

/-- It is the last dataset in the store then. -/
theorem extended_eq (hdomain : 1 ≤ domain) (hext : base.isExtendable = true)
    (hprimary : (onFields base.id Fields.primaryField s).1.map (·.spec) = some primary)
    (spec : DatasetSpec) :
    ∃ id x, x = .ofSpec id domain spec .default (.ok ⟨base, primary⟩) ∧
      (extended domain base spec s).1 = some x ∧
      (createExtension? domain spec .default (some base) s).2.extension? id = some x := by
  let path := extensionPath (Extension.baseKeyOf spec)
  have hbase : (checkBase path base s).1 = .ok ⟨base, primary⟩ :=
    checkBase_of_primary hext hprimary path
  let s' := (checkBase path base s).2
  have hadded : createExtension? domain spec .default (some base) s =
      (some (addExtension domain spec .default (.ok ⟨base, primary⟩) s').1,
        (addExtension domain spec .default (.ok ⟨base, primary⟩) s').2) := by
    rw [← hbase]
    unfold createExtension?
    rw [if_neg (Int.not_lt.mpr hdomain)]
    rfl
  have hstored : (createExtension? domain spec .default (some base) s).2.extension?
      s'.datasets.length =
        some (.ofSpec s'.datasets.length domain spec .default (.ok ⟨base, primary⟩)) := by
    rw [hadded]
    exact extension?_eq_some.mpr List.getElem?_concat_length
  refine ⟨s'.datasets.length, _, rfl, ?_, hstored⟩
  unfold extended
  rw [bind_apply]
  show (createExtension? domain spec .default (some base) s).1.bind _ = _
  rw [hadded] at hstored ⊢
  exact hstored

/-- As long as an extension has it for its base, a dictionary answers with the same primary field. -/
theorem primary_lasts {s : Scene σ} (hs : s.Sound) (hroot : s.world.store.Rooted) {x : Extension}
    (hx : s.world.store.extension? id = some x) (hbase : x.base = some base) {dict : Dataset}
    (hdict : s.world.store.stored? base.id = some (.dictionary dict))
    (calls : List (SceneCall σ)) :
    (onFields base.id Fields.primaryField (after Scene.step calls s).world.store).1.map (·.spec) =
      x.dataset.fields.specs.head? := by
  have hlater := Scene.after_over historySteps_rooted calls s hroot
  obtain ⟨y, hy, hcontinues⟩ :=
    Moves.continues (Scene.after_over historySteps_continue calls s) hroot.sound hx
  obtain ⟨dict', hdict'⟩ :=
    Advances.exists_dictionary (Scene.after_advances calls s hs).1 hroot.sound hdict
  rw [hlater.primary_of_heir hy (hcontinues.base hbase) hdict']
  rcases hcontinues.list with ⟨-, ha⟩ | ⟨hnone, -, -⟩
  · rw [ha.specs]
  · rw [hnone] at hbase
    cases hbase

/-- In every scene, for every extendable global dictionary with a primary field: an extension that is
made of it from any definition is made again, whatever has happened in between, from its full
definition and from its editable one. Distinct names in the dictionary are not needed. -/
theorem extension_remade_from_definitions (outside : σ) (calls : List (SceneCall σ)) (s : Scene σ)
    (hs : s = after Scene.step calls (Scene.start outside)) (dict : Dataset)
    (hdict : s.world.store.stored? dict.descriptor.id = some (.dictionary dict))
    (hext : dict.descriptor.isExtendable = true)
    (hprimary : (onFields dict.descriptor.id Fields.primaryField s.world.store).1 ≠ none)
    (domain : Int) (hdomain : 1 ≤ domain) (spec : DatasetSpec) :
    ∃ x, (extended domain dict.descriptor spec s.world.store).1 = some x ∧
      x.base = some dict.descriptor ∧
      ∀ (more : List (SceneCall σ)) (t : Scene σ),
        t = after Scene.step (.createExtension domain spec .default (some dict.descriptor) :: more) s →
        ∀ definition, definition = x.toSpec ∨ definition = x.publicView →
          ∃ y, (extended domain dict.descriptor definition t.world.store).1 = some y ∧
            y.base = some dict.descriptor ∧ y.toSpec = x.toSpec := by
  have hsound : s.Sound := hs ▸ Scene.sound_after outside calls
  obtain ⟨f, hf⟩ := Option.ne_none_iff_exists'.mp hprimary
  have hnow : (onFields dict.descriptor.id Fields.primaryField s.world.store).1.map (·.spec) =
      some f.spec := by
    rw [hf]
    rfl
  obtain ⟨id, x, rfl, hx, hstored⟩ := extended_eq hdomain hext hnow spec
  refine ⟨_, hx, rfl, fun more t ht definition hdefinition => ?_⟩
  let call : SceneCall σ := .createExtension domain spec .default (some dict.descriptor)
  have hroot : s.world.store.Rooted := hs ▸ Scene.rooted_after outside calls
  obtain ⟨hmade, hsound₁⟩ := Scene.next_advances call s hsound
  obtain ⟨dict₁, hdict₁⟩ := Advances.exists_dictionary hmade hroot.sound hdict
  -- the base answers then as it did, since the extension begins with what it answered
  have hlater : (onFields dict.descriptor.id Fields.primaryField t.world.store).1.map (·.spec) =
      some f.spec := by
    rw [ht]
    exact primary_lasts hsound₁ (Scene.after_over historySteps_rooted [call] s hroot) hstored rfl
      hdict₁ more
  obtain ⟨_, y, rfl, hy, -⟩ := extended_eq hdomain hext hlater definition
  refine ⟨_, hy, rfl, ?_⟩
  rcases hdefinition with rfl | rfl
  · exact Extension.toSpec_remade.1
  · exact Extension.toSpec_remade.2

end Store

namespace ShadowedKey

/-- A definition that names the key of the base again, and a field of its own twice. -/
def twice : DatasetSpec :=
  { vip with fields := [.ofKind "vip" .bool, .ofKind "Id" .bool, .ofKind "VIP" .bool] }

theorem key_there :
    (Store.onFields base.id Fields.primaryField scene.world.store).1.isSome = true := by
  decide +kernel

end ShadowedKey

open ShadowedKey in
theorem shadowed_key_remade :
    ∃ x y, (Store.extended 7 base twice scene.world.store).1 = some x ∧
      x.dataset.fields.names = ["id", "vip", "VIP"] ∧
      (Store.extended 7 base x.publicView (after Scene.step
        [.createExtension 7 twice .default (some base)] scene).world.store).1 = some y ∧
      y.toSpec = x.toSpec := by
  have hnames : (Store.extended 7 base twice scene.world.store).1.map (·.dataset.fields.names) =
      some ["id", "vip", "VIP"] := by
    decide +kernel
  have hprimary := Option.isSome_iff_ne_none.mp key_there
  have hext : base.isExtendable = true := by decide +kernel
  obtain ⟨dict, hdict, hdescriptor⟩ := base_there
  rw [← hdescriptor] at hdict hprimary hext hnames ⊢
  have hscene : scene = after Scene.step calls (Scene.start {}) := by
    unfold scene
    rfl
  obtain ⟨x, hx, -, hremade⟩ := Store.extension_remade_from_definitions ({} : Directory) calls scene
    hscene dict hdict hext hprimary 7 (by decide) twice
  obtain ⟨y, hy, -, hspec⟩ := hremade [] _ rfl x.publicView (.inr rfl)
  rw [hx] at hnames
  exact ⟨x, y, hx, Option.some.inj hnames, hy, hspec⟩

end TenantSchema
