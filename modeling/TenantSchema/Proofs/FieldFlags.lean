import TenantSchema.Proofs.FieldShelf
import TenantSchema.Proofs.LowerCase
import TenantSchema.Proofs.SlotIntegrity

/-!
# Marks of the key fields

A field is marked as the primary or the display field when it is derived, by comparing its name with
the keys of its list. The accessors ask the index of lower-case names instead. As long as no two
names are equal ignoring case, both point at the same field, whatever has been looked up before and
whether or not the list has been rebuilt since it was made.
-/

namespace TenantSchema

namespace Fields

variable {fs : Fields} {f : Field} {i : Nat}

/-- The field has the marks of a key field just if the accessors answer with it. -/
structure MarksMatch (fs : Fields) (f : Field) : Prop where
  primary : f.isPrimary = true ↔ (primaryField fs).1 = some f
  display : f.isDisplay = true ↔ (displayField fs).1 = some f

/-- To compare a name with the one that a key asks for is to look that one up. -/
theorem Coherent.eqFold_iff_byName (hc : fs.Coherent) (hd : fs.Distinct)
    (hf : fs.fieldAt? i = some f) (key name : String) :
    (!key.isEmpty && Text.eqFold f.name name) = true ↔
      (if key.isEmpty then (none, fs) else Fields.byName name fs).1 = some f := by
  cases key.isEmpty with
  | true => simp
  | false =>
    rw [Bool.not_false, Bool.true_and, Text.eqFold_iff, if_neg Bool.false_ne_true,
      hc.byName_eq_some_iff hd hf]
    exact Iff.rfl

/-- Every field of a list with distinct names is marked as the accessors answer. -/
theorem Coherent.marksMatch (hc : fs.Coherent) (hd : fs.Distinct) (hf : fs.fieldAt? i = some f) :
    fs.MarksMatch f := by
  obtain ⟨spec, -, hspec⟩ := fieldAt?_eq_some.mp hf
  have hprimary : f.isPrimary = fs.keys.isPrimary f.name := by rw [← hspec]; rfl
  have hdisplay : f.isDisplay = fs.keys.isDisplay f.name := by rw [← hspec]; rfl
  constructor
  · rw [hprimary, primaryField_eq]
    exact hc.eqFold_iff_byName hd hf fs.keys.primary fs.keys.primary
  · rw [hdisplay, displayField_eq]
    -- only the head of the path is a name, but the whole path decides whether there is one
    exact hc.eqFold_iff_byName hd hf fs.keys.display (displayHead fs.keys.display)

end Fields

/-- However some lists have been read and redefined, as long as no version has wrapped around: the
fields of the present version of a list are marked as its accessors answer. -/
theorem Shelf.marks_match (calls : List ShelfCall)
    (hcalls : ∀ k, calls.countP (·.resets k) + 1 < UInt32.size) (k : Nat) (fs : Fields)
    (hk : (after step calls {}).lists[k]? = some fs) (hd : fs.Distinct) (f : Field)
    (hf : (k, f) ∈ (after step calls {}).handed) (hv : f.version = fs.version) :
    fs.MarksMatch f := by
  have hstart : Sound (fun _ => 0) {} := by
    refine ⟨fun _ _ h => ?_, fun _ h => ?_, fun _ h => ?_⟩ <;> cases h
  have hsound := hstart.after calls fun k => by simpa using hcalls k
  obtain ⟨gs, hgs, hfrom⟩ := hsound.handed _ hf
  rw [hk] at hgs
  cases hgs
  have hc := (hsound.lists k fs hk).coherent
  exact hc.marksMatch hd (hc.fresh? (hfrom.fresh hv))

/-! ### Datasets of a scene -/

namespace Scene

variable {σ : Type} {s : Scene σ} {id : Nat} {d : StoredDataset} {f : Field}

/-- A field of the dataset as it is now: one of its list, or one taken before that it owns still. -/
def Current (s : Scene σ) (id : Nat) (f : Field) : Prop :=
  f ∈ (World.onFields id Fields.toList s.world).1 ∨
    f ∈ s.fields ∧ (World.onFields id (Fields.owns f) s.world).1 = true

instance (s : Scene σ) (id : Nat) (f : Field) : Decidable (s.Current id f) :=
  inferInstanceAs (Decidable (_ ∨ _))

/-- A current field has its place in the list as it is now. -/
theorem Sound.current (h : s.Sound) (hd : s.world.store.stored? id = some d)
    (hf : s.Current id f) : ∃ i, d.dataset.fields.fieldAt? i = some f := by
  rcases hf with hf | ⟨hf, howned⟩
  · rw [World.onFields_answer hd, (h.store id d hd).coherent.toList] at hf
    exact Fields.mem_all.mp hf
  · have hissued := h.fields f hf
    obtain ⟨ho, hv⟩ := (World.owns_iff h.store hd hissued).mp howned
    obtain ⟨d', hd', hfrom⟩ := hissued
    rw [ho, hd] at hd'
    cases hd'
    exact ⟨f.num - 1, (h.store id d hd).coherent.fresh? (hfrom.fresh hv)⟩

end Scene

/-- In every scene, before and after an extension finds its base, and whatever has been looked up in
any order: where the names of a dataset are distinct ignoring case, its current fields are marked as
primary and as display field just if they are what the accessors answer. -/
theorem marks_match_accessors {σ : Type} [Outside σ] (outside : σ) (calls : List (SceneCall σ))
    (s : Scene σ) (hs : s = after Scene.step calls (Scene.start outside)) (id : Nat) (d : Dataset)
    (hd : s.world.store.dataset? id = some d) (hdistinct : d.fields.Distinct) (f : Field)
    (hf : s.Current id f) :
    (f.isPrimary = true ↔ (World.onFields id Fields.primaryField s.world).1 = some f) ∧
      (f.isDisplay = true ↔ (World.onFields id Fields.displayField s.world).1 = some f) := by
  subst hs
  have hsound := Scene.sound_after outside calls
  obtain ⟨stored, hst, rfl⟩ := Option.map_eq_some_iff.mp hd
  obtain ⟨i, hi⟩ := hsound.current hst hf
  rw [World.onFields_answer hst, World.onFields_answer hst]
  obtain ⟨hprimary, hdisplay⟩ := (hsound.store id stored hst).coherent.marksMatch hdistinct hi
  exact ⟨hprimary, hdisplay⟩

/-! ### Keys of another case -/

namespace CapitalKeys

/-- The keys are not in the case of the fields, and the display key is a path. -/
def contacts : DatasetSpec :=
  { name := "contacts", path := "contacts"
    fields := [.ofKind "émail" (.text .string), .ofKind "Name" (.text .string)]
    primary := "ÉMAIL", display := "NAME.first", extendable := true }

/-- The extension is read, rebuilt and read again, each time by other names. -/
def calls : List (SceneCall Directory) :=
  [.addDictionary 0 contacts .nowhere, .takeFieldByName 0 "nAME",
    .createExtension 7 { name := "contacts", fields := [.ofKind "vip" .bool] } (.table 0) none,
    .takeFieldByName 1 "VIP",
    .change fun o => { o with tables := o.tables.map (·.put "contacts" LateBase.contacts) },
    .baseDictionary 1, .takeFieldByName 1 "Émail"]

def scene : Scene Directory := after Scene.step calls (Scene.start LateBase.emptyTable)

theorem contacts_there : (scene.world.store.dataset? 0).isSome = true := by decide +kernel

theorem extension_there : (scene.world.store.dataset? 1).isSome = true := by decide +kernel

theorem name_taken : scene.fields[0]?.isSome = true := by decide +kernel

theorem email_taken : scene.fields[2]?.isSome = true := by decide +kernel

end CapitalKeys

open CapitalKeys in
theorem capital_keys_mark_fields :
    ∃ f g : Field, f.name = "Name" ∧ g.name = "émail" ∧ g.version = 2 ∧
      (World.onFields 0 Fields.displayField scene.world).1 = some f ∧
      (World.onFields 0 Fields.primaryField scene.world).1 ≠ some f ∧
      (World.onFields 1 Fields.primaryField scene.world).1 = some g ∧
      (World.onFields 1 Fields.displayField scene.world).1 = some g := by
  have hscene : scene = after Scene.step calls (Scene.start LateBase.emptyTable) := by
    unfold scene
    rfl
  have hd := (Option.some_get contacts_there).symm
  have hx := (Option.some_get extension_there).symm
  have hdistinct : (Option.get _ contacts_there).fields.Distinct := by decide +kernel
  have hxdistinct : (Option.get _ extension_there).fields.Distinct := by decide +kernel
  have hname : scene.Current 0 (Option.get _ name_taken) := by decide +kernel
  have hemail : scene.Current 1 (Option.get _ email_taken) := by decide +kernel
  obtain ⟨hprimary, hdisplay⟩ := marks_match_accessors LateBase.emptyTable calls scene hscene 0 _ hd
    hdistinct _ hname
  obtain ⟨hkey, hshown⟩ := marks_match_accessors LateBase.emptyTable calls scene hscene 1 _ hx
    hxdistinct _ hemail
  refine ⟨Option.get _ name_taken, Option.get _ email_taken, by decide +kernel, by decide +kernel,
    by decide +kernel, hdisplay.mp (by decide +kernel), fun h => ?_, hkey.mp (by decide +kernel),
    hshown.mp (by decide +kernel)⟩
  have hmarked := hprimary.mpr h
  have hunmarked : (Option.get _ name_taken).isPrimary = false := by decide +kernel
  rw [hunmarked] at hmarked
  cases hmarked

end TenantSchema
