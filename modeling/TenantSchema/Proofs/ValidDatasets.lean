import TenantSchema.Proofs.BaseResolution

/-!
# Valid datasets

The issues of a dataset are those of its definitions and keys, whatever has been derived from them so
far, and what the checks of its types find at the moment.
-/

namespace TenantSchema

/-! ### Lists of fields -/

/-- Fields without issues have proper names, no two of which are equal. -/
theorem names_of_fieldListIssues {earlier : List Field} {checked : List (Field × Option TypeError)}
    (h : fieldListIssues earlier checked = []) :
    (∀ e ∈ checked, Text.isWord e.1.name = true ∧
      ∀ f ∈ earlier, Text.lower f.name ≠ Text.lower e.1.name) ∧
    (checked.map (Text.lower ·.1.name)).Nodup := by
  induction checked generalizing earlier with
  | nil => exact ⟨by simp, List.nodup_nil⟩
  | cons first rest ih =>
    obtain ⟨f, typeError⟩ := first
    obtain ⟨hf, hrest⟩ := List.append_eq_nil_iff.mp h
    obtain ⟨hnames, hnodup⟩ := ih hrest
    obtain ⟨hf, -⟩ := List.append_eq_nil_iff.mp hf
    obtain ⟨hword, hdup⟩ := List.append_eq_nil_iff.mp hf
    have hword : Text.isWord f.name = true := by
      by_contra hno
      simp [hno] at hword
    have hnew : ∀ g ∈ earlier, Text.lower g.name ≠ Text.lower f.name := by
      intro g hg hsame
      have hany : earlier.any (Text.eqFold ·.name f.name) = true :=
        List.any_eq_true.mpr ⟨g, hg, by simp [Text.eqFold, hsame]⟩
      simp [hany] at hdup
    refine ⟨fun e he => ?_, List.nodup_cons.mpr ⟨fun hmem => ?_, hnodup⟩⟩
    · rcases List.mem_cons.mp he with rfl | he
      · exact ⟨hword, hnew⟩
      · obtain ⟨hw, hne⟩ := hnames e he
        exact ⟨hw, fun g hg => hne g (List.mem_append_left _ hg)⟩
    · obtain ⟨e, he, hsame⟩ := List.mem_map.mp hmem
      exact (hnames e he).2 f (List.mem_append_right _ List.mem_cons_self) hsame.symm

/-- Fields without issues have well-formed types. -/
theorem types_of_fieldListIssues {earlier : List Field} {checked : List (Field × Option TypeError)}
    (h : fieldListIssues earlier checked = []) : ∀ e ∈ checked, e.2 = none := by
  induction checked generalizing earlier with
  | nil => simp
  | cons first rest ih =>
    obtain ⟨hf, hrest⟩ := List.append_eq_nil_iff.mp h
    obtain ⟨-, htype⟩ := List.append_eq_nil_iff.mp hf
    intro e he
    rcases List.mem_cons.mp he with rfl | he
    · rwa [Option.toList_eq_nil_iff, Option.map_eq_none_iff] at htype
    · exact ih hrest e he

/-! ### Keys -/

/-- Issues of keys only say whether there are such fields. -/
theorem keyIssues_congr (keys : FieldKeys) {primary primary' display display' : Option Field}
    (hp : primary'.isNone = primary.isNone) (hd : display'.isNone = display.isNone) :
    keyIssues keys primary' display' = keyIssues keys primary display := by
  unfold keyIssues
  rw [hp, hd]

namespace Fields

variable {fs fs' : Fields}

/-- What is wrong with the keys of a field list. -/
def keyIssues (fs : Fields) : List Issue :=
  TenantSchema.keyIssues fs.keys (primaryField fs).1 (displayField fs).1

section Agrees

variable (hc : fs.Coherent) (hc' : fs'.Coherent) (ha : fs.Agrees fs')

include hc hc' ha

/-- A name is missed whatever has been derived so far. -/
theorem Agrees.byName_isNone (name : String) :
    (Fields.byName name fs').1.isNone = (Fields.byName name fs).1.isNone := by
  rw [Bool.eq_iff_iff, Option.isNone_iff_eq_none, Option.isNone_iff_eq_none, hc'.byName_eq_none,
    hc.byName_eq_none, ha.specs]

theorem Agrees.primaryField_isNone :
    (primaryField fs').1.isNone = (primaryField fs).1.isNone := by
  rw [primaryField_eq, primaryField_eq, ha.keys]
  split
  · rfl
  · exact ha.byName_isNone hc hc' _

theorem Agrees.displayField_isNone :
    (displayField fs').1.isNone = (displayField fs).1.isNone := by
  rw [displayField_eq, displayField_eq, ha.keys]
  split
  · rfl
  · exact ha.byName_isNone hc hc' _

theorem Agrees.keyIssues_eq : fs'.keyIssues = fs.keyIssues := by
  unfold keyIssues
  rw [ha.keys]
  exact keyIssues_congr _ (ha.primaryField_isNone hc hc') (ha.displayField_isNone hc hc')

end Agrees

end Fields

/-! ### Datasets -/

namespace World

variable {σ : Type} {w w' : World (Store σ)} {id : Nat} {stored : StoredDataset}

/-- A dataset at rest keeps its coherent field list. -/
theorem Rests.fields (h : w.Rests w') (hw : w.store.Sound) (hd : w.store.stored? id = some stored) :
    ∃ stored', w'.store.stored? id = some stored' ∧ stored'.dataset.fields.Coherent ∧
      stored.dataset.fields.Agrees stored'.dataset.fields := by
  obtain ⟨hw', hrests⟩ := h hw
  obtain ⟨stored', hd', hr⟩ := hrests id stored hd
  exact ⟨stored', hd', (hw' _ _ hd').coherent, hr.fields⟩

/-- The fields that a dataset hands out are those that it defines. -/
theorem onFields_toList (hw : w.store.Sound) (hd : w.store.stored? id = some stored) :
    (onFields id Fields.toList w).1 = stored.dataset.fields.all :=
  (onFields_answer hd Fields.toList).trans (hw _ _ hd).coherent.toList

variable [Outside σ]

theorem typeErrors_cons (f : Field) (rest : List Field) (w : World (Store σ)) :
    typeErrors (f :: rest) w =
      let checked := (f.type.validateDescriptor : Decoding (Store σ) Unit).run w
      let others := typeErrors rest checked.2
      ((f, match checked.1 with | .ok () => none | .error e => some e) :: others.1, others.2) := by
  rw [typeErrors, bind_apply]
  generalize (f.type.validateDescriptor : Decoding (Store σ) Unit).run w = checked
  obtain ⟨e | _, w'⟩ := checked <;> rfl

theorem typeErrors_fields (fields : List Field) (w : World (Store σ)) :
    (typeErrors fields w).1.map (·.1) = fields := by
  induction fields generalizing w with
  | nil => rfl
  | cons f rest ih => exact congrArg (f :: ·) (ih _)

/-- The issues of the fields come first. -/
theorem datasetIssues_answer (hw : w.store.Sound) (hd : w.store.stored? id = some stored) :
    (datasetIssues id w).1 =
      fieldListIssues []
        (typeErrors stored.dataset.fields.all (onFields id Fields.toList w).2).1 ++
          stored.dataset.fields.keyIssues := by
  have hc := (hw _ _ hd).coherent
  rw [← onFields_toList hw hd]
  -- the keys are looked at in worlds in which the field list is still at rest
  let w₁ := (onFields id Fields.toList w).2
  let w₂ := (typeErrors (onFields id Fields.toList w).1 w₁).2
  let w₃ := (onFields id Fields.primaryField w₂).2
  have h₁ : w.Rests w₁ := Store.deriving_rests.onFields id Fields.lookups_read.toList w
  have h₂ : w.Rests w₂ :=
    IsTrans.trans (r := World.Rests) _ _ _ h₁ (Store.reading_rests.typeErrors _ w₁)
  have h₃ : w.Rests w₃ := IsTrans.trans (r := World.Rests) _ _ _ h₂
    (Store.deriving_rests.onFields id Fields.lookups_read.primaryField w₂)
  obtain ⟨d₂, hd₂, hc₂, ha₂⟩ := h₂.fields hw hd
  obtain ⟨d₃, hd₃, hc₃, ha₃⟩ := h₃.fields hw hd
  have hkeys : ((w₂.store.fields? id).map (·.keys)).getD {} = stored.dataset.fields.keys := by
    rw [Store.fields?, Store.dataset?, hd₂, ← ha₂.keys]
    rfl
  have hanswer : (datasetIssues id w).1 =
      fieldListIssues [] (typeErrors (onFields id Fields.toList w).1 w₁).1 ++
        keyIssues (((w₂.store.fields? id).map (·.keys)).getD {})
          (onFields id Fields.primaryField w₂).1 (onFields id Fields.displayField w₃).1 := rfl
  rw [hanswer, hkeys, onFields_answer hd₂, onFields_answer hd₃]
  exact congrArg _ (keyIssues_congr _ (ha₂.primaryField_isNone hc hc₂)
    (ha₃.displayField_isNone hc hc₃))

theorem validateFields_world (d : Descriptor) (w : World (Store σ)) :
    (validateFields d w).2 =
      (onFields d.id Fields.displayField <| Prod.snd <| onFields d.id Fields.primaryField <|
        Prod.snd <| typeErrors (onFields d.id Fields.toList w).1
          (onFields d.id Fields.toList w).2).2 := rfl

theorem validateFields_ok_iff {d : Descriptor} :
    (validateFields d w).1 = .ok () ↔ (datasetIssues d.id w).1 = [] := by
  show DatasetError.check d.path (datasetIssues d.id w).1 = .ok () ↔ _
  unfold DatasetError.check
  split
  · next b hb =>
    -- an issue that tells of a breakdown is an issue
    refine ⟨nofun, fun hnil => ?_⟩
    rw [hnil] at hb
    cases hb
  · rw [← List.isEmpty_iff]
    split <;> simp_all

/-- A valid dataset has proper and distinct names. -/
theorem distinct_of_validateFields (hw : w.store.Sound) {d : Descriptor}
    (hd : w.store.stored? d.id = some stored) (h : (validateFields d w).1 = .ok ()) :
    stored.dataset.fields.Distinct ∧
      ∀ spec ∈ stored.dataset.fields.specs, Text.isWord spec.id = true := by
  rw [validateFields_ok_iff, datasetIssues_answer hw hd] at h
  obtain ⟨hnames, hnodup⟩ := names_of_fieldListIssues (List.append_eq_nil_iff.mp h).1
  have hchecked := typeErrors_fields stored.dataset.fields.all (onFields d.id Fields.toList w).2
  generalize (typeErrors stored.dataset.fields.all (onFields d.id Fields.toList w).2).1 = checked
    at hnames hnodup hchecked
  have hspecs : checked.map (·.1.spec) = stored.dataset.fields.specs := by
    rw [← stored.dataset.fields.map_spec_all, ← hchecked, List.map_map]
    rfl
  constructor
  · unfold Fields.Distinct
    rw [← hspecs, List.map_map]
    exact hnodup
  · intro spec hspec
    rw [← hspecs] at hspec
    obtain ⟨e, he, rfl⟩ := List.mem_map.mp hspec
    exact (hnames e he).1

theorem validate_dictionary {d : Descriptor} (h : d.kind = .dictionary) :
    validate d w = validateFields d w := by
  unfold validate
  rw [h]

/-- A dictionary is not valid as an extension. -/
theorem kind_of_validate {d : Descriptor} {dict : Dataset}
    (hd : w.store.stored? d.id = some (.dictionary dict)) (h : (validate d w).1 = .ok ()) :
    d.kind = .dictionary := by
  cases hkind : d.kind with
  | dictionary => rfl
  | extension =>
    -- a dictionary has no base
    have hbase : (onStore (Store.baseDictionary d.id) w).1 = .error (.baseNotFound "") := by
      show (Store.baseDictionary d.id w.store).1 = _
      rw [Store.baseDictionary_eq, Store.extension?, hd]
      rfl
    unfold validate at h
    rw [hkind] at h
    dsimp only at h
    rw [bind_apply, hbase] at h
    cases h

theorem validateFields_of_validate {d : Descriptor} {dict : Dataset}
    (hd : w.store.stored? d.id = some (.dictionary dict)) (h : (validate d w).1 = .ok ()) :
    (validateFields d w).1 = .ok () := by
  rwa [validate_dictionary (kind_of_validate hd h)] at h

end World

end TenantSchema
