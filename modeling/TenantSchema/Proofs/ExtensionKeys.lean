import TenantSchema.Proofs.BaseResolution
import TenantSchema.Proofs.SceneSteps

/-!
# The keys of extensions

An extension that has found its base begins with the base's primary field and is keyed by it: at
once or late, looked up, given or built for a resolver. The base is never rebuilt, and it answers
with the same primary field from then on, so this stays so.
-/

namespace TenantSchema

namespace Extension

/-- The extension begins with the field, which is its primary and display field. -/
structure KeyedBy (x : Extension) (primary : FieldSpec) : Prop where
  specs : x.dataset.fields.specs = merge primary x.custom
  keys : x.dataset.fields.keys = .of primary.id primary.id

/-- The extension is keyed by the primary field of the dictionary, whose names are distinct. -/
def Inherits (x : Extension) (d : StoredDataset) : Prop :=
  ∀ dict, d = .dictionary dict → dict.fields.Distinct →
    ∃ primary, dict.fields.primarySpec? = some primary ∧ x.KeyedBy primary

theorem ofSpec_keyedBy (id : Nat) (domain : Int) (spec : DatasetSpec) (via : Via) (base : Base) :
    (ofSpec id domain spec via (.ok base)).KeyedBy base.primary := ⟨rfl, rfl⟩

theorem resolved_keyedBy (x : Extension) (base : Base) :
    (x.resolved (.ok base)).KeyedBy base.primary := ⟨rfl, rfl⟩

section KeyedBy

variable {x : Extension} {primary : FieldSpec} (h : x.KeyedBy primary)

include h

theorem KeyedBy.fieldAt?_zero :
    ∃ g, x.dataset.fields.fieldAt? 0 = some g ∧ g.num = 1 ∧ g.spec = primary := by
  have hfirst : x.dataset.fields.specs[0]? = some primary := by
    rw [h.specs]
    rfl
  exact ⟨_, Fields.fieldAt?_eq_some.mpr ⟨primary, hfirst, rfl⟩, rfl, rfl⟩

/-- No other field has the name of the first one. -/
theorem KeyedBy.byName_first (hc : x.dataset.fields.Coherent) :
    (Fields.byName primary.id x.dataset.fields).1 = x.dataset.fields.fieldAt? 0 := by
  cases hf : (Fields.byName primary.id x.dataset.fields).1 with
  | none =>
    have hno := hc.byName_eq_none.mp hf primary (by rw [h.specs]; exact List.mem_cons_self)
    exact absurd rfl hno
  | some f =>
    obtain ⟨⟨i, hi⟩, hn⟩ := hc.byName_some hf
    obtain ⟨-, -, -, hspec⟩ := Fields.fieldAt?_spec hi
    rw [h.specs] at hspec
    cases i with
    | zero => exact hi.symm
    | succ i =>
      have hother := (List.mem_filter.mp (List.mem_of_getElem? hspec)).2
      have hn : Text.lower f.spec.id = Text.lower primary.id := hn
      simp [Text.eqFold, hn] at hother

theorem KeyedBy.primaryField_first (hc : x.dataset.fields.Coherent)
    (hid : primary.id.isEmpty = false) :
    (Fields.primaryField x.dataset.fields).1 = x.dataset.fields.fieldAt? 0 := by
  have hkey : x.dataset.fields.keys.primary = primary.id := by rw [h.keys]; rfl
  rw [Fields.primaryField_eq, hkey, hid]
  exact h.byName_first hc

end KeyedBy

/-- The extension is keyed by the primary field that the dictionary answers with. -/
def Descends (x : Extension) (d : StoredDataset) : Prop :=
  ∀ dict, d = .dictionary dict → ∃ f, dict.fields.PrimaryIs f ∧ x.KeyedBy f.spec

/-- With distinct names there is one primary field to answer with. -/
theorem Descends.inherits {x : Extension} {d : StoredDataset} (h : x.Descends d)
    (hc : d.dataset.fields.Coherent) : x.Inherits d := by
  rintro dict rfl hdist
  obtain ⟨f, hf, hkeyed⟩ := h dict rfl
  have hc : dict.fields.Coherent := hc
  have hprimary := hc.primaryField_spec (hdist.unambiguous dict.fields.keys.primary)
  rw [hf.answer] at hprimary
  exact ⟨f.spec, hprimary.symm, hkeyed⟩

end Extension

namespace StoredDataset

variable {x y : Extension} {d : StoredDataset} {fields : Fields}

/-- A dataset as every new one is, at whatever version. -/
structure Grounded (d : StoredDataset) : Prop where
  sized : d.dataset.fields.Sized
  placed : 0 ≤ d.dataset.descriptor.domain

theorem grounded_dictionary (id : Nat) (domain : Int) (spec : DatasetSpec) (via : Via) :
    (StoredDataset.dictionary (.ofSpec id .dictionary domain spec via)).Grounded where
  sized := Fields.ofSpecs_sized _ _ _ _
  placed := Int.le_max_right domain 0

theorem grounded_extension (id : Nat) (domain : Int) (spec : DatasetSpec) (via : Via)
    (found : Except DatasetError Base) :
    (StoredDataset.extension (.ofSpec id domain spec via found)).Grounded where
  sized := Fields.ofSpecs_sized _ _ _ _
  placed := Int.le_max_right domain 0

theorem Grounded.setFields (h : d.Grounded) (hr : d.dataset.fields.Retains fields) :
    (d.setFields fields).Grounded := by
  constructor
  · rw [dataset_setFields]
    exact (hr h.sized).1
  · rw [dataset_setFields]
    exact h.placed

theorem Grounded.resolved (h : (StoredDataset.extension x).Grounded)
    (found : Except DatasetError Base) :
    (StoredDataset.extension (x.resolved found)).Grounded := by
  cases found with
  | error e => exact ⟨h.sized, h.placed⟩
  | ok base => exact ⟨Fields.reset_sized _ _ _ _, h.placed⟩

/-- Reading a dictionary does not change what descends from it. -/
theorem descends_setFields (hd : d.Grounded) (hc : d.dataset.fields.Coherent)
    (hr : d.dataset.fields.Reads fields) (h : x.Descends d) : x.Descends (d.setFields fields) := by
  intro dict hdict
  cases d with
  | extension y => cases hdict
  | dictionary dict₀ =>
    cases hdict
    obtain ⟨f, hf, hkeyed⟩ := h dict₀ rfl
    exact ⟨f, hf.later hd.sized hc hr, hkeyed⟩

theorem setFields_descends (ha : x.dataset.fields.Agrees fields)
    (hy : (StoredDataset.extension x).setFields fields = .extension y) (h : x.Descends d) :
    y.Descends d := by
  cases hy
  intro dict hdict
  obtain ⟨f, hf, hkeyed⟩ := h dict hdict
  exact ⟨f, hf, ha.specs.trans hkeyed.specs, ha.keys.trans hkeyed.keys⟩

end StoredDataset

namespace Store

variable {σ : Type} {s : Store σ}

/-- The base can be extended, and the extension descends from what is stored under its number. -/
def Roots (s : Store σ) (base : Descriptor) (x : Extension) : Prop :=
  base.isExtendable = true ∧ ∃ d, s.stored? base.id = some d ∧ x.Descends d

/-- The base can be extended, and its primary field is the one that the stored dictionary answers
with. -/
def Knows (s : Store σ) (base : Base) : Prop :=
  base.descriptor.isExtendable = true ∧ ∃ d, s.stored? base.descriptor.id = some d ∧
    ∀ dict, d = .dictionary dict → ∃ f, dict.fields.PrimaryIs f ∧ f.spec = base.primary

/-- A sound store in which extensions descend from their bases. -/
structure Rooted (s : Store σ) : Prop where
  sound : s.Sound
  grounded : ∀ id d, s.stored? id = some d → d.Grounded
  heirs : ∀ {id : Nat} {x : Extension} {base : Descriptor}, s.extension? id = some x →
    x.base = some base → s.Roots base x

/-- A sound store in which extensions are keyed as their bases are. -/
structure Keyed (s : Store σ) : Prop where
  sound : s.Sound
  heirs : ∀ {id : Nat} {x : Extension} {base : Descriptor}, s.extension? id = some x →
    x.base = some base → ∃ d, s.stored? base.id = some d ∧ x.Inherits d

/-- An extension of a stored dictionary is keyed by the field that the dictionary answers with. -/
theorem Rooted.keyed_of_heir (h : s.Rooted) {id : Nat} {x : Extension} {base : Descriptor}
    (hx : s.extension? id = some x) (hbase : x.base = some base) {dict : Dataset}
    (hdict : s.stored? base.id = some (.dictionary dict)) :
    base.isExtendable = true ∧ ∃ f, dict.fields.PrimaryIs f ∧ x.KeyedBy f.spec := by
  obtain ⟨hext, d, hd, hdescends⟩ := h.heirs hx hbase
  rw [hdict] at hd
  exact ⟨hext, hdescends dict (Option.some.inj hd).symm⟩

theorem Rooted.keyed (h : s.Rooted) : s.Keyed := by
  refine ⟨h.sound, fun hx hbase => ?_⟩
  obtain ⟨-, d, hd, hdescends⟩ := h.heirs hx hbase
  exact ⟨d, hd, hdescends.inherits (h.sound _ d hd).coherent⟩

theorem Knows.roots {base : Base} (h : s.Knows base) {x : Extension}
    (hx : x.KeyedBy base.primary) : s.Roots base.descriptor x := by
  obtain ⟨hext, d, hd, hprimary⟩ := h
  refine ⟨hext, d, hd, fun dict hdict => ?_⟩
  obtain ⟨f, hf, hspec⟩ := hprimary dict hdict
  exact ⟨f, hf, hspec ▸ hx⟩

/-! ### One dataset -/

/-- One dataset changes, and nothing that descends from it notices. -/
theorem Rooted.set {id : Nat} {d d' : StoredDataset} (h : s.Rooted) (hd : s.stored? id = some d)
    (hsound : Sound { s with datasets := s.datasets.set id d' }) (hground : d'.Grounded)
    (hold : ∀ x : Extension, x.Descends d → x.Descends d')
    (hnew : ∀ x base, d' = .extension x → x.base = some base → s.Roots base x) :
    Rooted { s with datasets := s.datasets.set id d' } := by
  -- what there was descends from what is still there
  have hkept {x : Extension} {base : Descriptor} (hx : s.Roots base x) :
      Roots { s with datasets := s.datasets.set id d' } base x := by
    obtain ⟨hext, b, hb, hx⟩ := hx
    refine ⟨hext, ?_⟩
    rw [stored?_set hd]
    split
    · next hi =>
      subst hi
      rw [hd] at hb
      cases hb
      exact ⟨d', rfl, hold x hx⟩
    · exact ⟨b, hb, hx⟩
  refine ⟨hsound, fun i di hi => ?_, fun {i x base} hx hbase => hkept ?_⟩
  · rw [stored?_set hd] at hi
    split at hi
    · cases hi
      exact hground
    · exact h.grounded i di hi
  · have hx := extension?_eq_some.mp hx
    rw [stored?_set hd] at hx
    split at hx
    · exact hnew x base (Option.some.inj hx) hbase
    · exact h.heirs (extension?_eq_some.mpr hx) hbase

theorem Rooted.append {d : StoredDataset} (h : s.Rooted)
    (hsound : Sound { s with datasets := s.datasets ++ [d] }) (hground : d.Grounded)
    (hnew : ∀ x base, d = .extension x → x.base = some base → s.Roots base x) :
    Rooted { s with datasets := s.datasets ++ [d] } := by
  refine ⟨hsound, fun i di hi => ?_, fun {i x base} hx hbase => ?_⟩
  · rcases stored?_append_cases hi with hi | ⟨-, rfl⟩
    · exact h.grounded i di hi
    · exact hground
  · have hheir : s.Roots base x := by
      rcases stored?_append_cases (extension?_eq_some.mp hx) with hx | ⟨-, hx⟩
      · exact h.heirs (extension?_eq_some.mpr hx) hbase
      · exact hnew x base hx.symm hbase
    obtain ⟨hext, b, hb, hdescends⟩ := hheir
    exact ⟨hext, b, stored?_append hb d, hdescends⟩

/-! ### Bases -/

theorem checkBase_knows (hs : s.Rooted) {path : String} {e : Descriptor} {base : Base}
    (h : (checkBase path e s).1 = .ok base) : (checkBase path e s).2.Knows base := by
  obtain ⟨hext, rfl, hprimary, hstep⟩ := checkBase_ok h
  refine ⟨hext, ?_⟩
  rw [hstep, onFields_eq]
  rw [onFields_eq] at hprimary
  cases hd : s.stored? base.descriptor.id with
  | none =>
    rw [hd] at hprimary
    cases hprimary
  | some d =>
    rw [hd] at hprimary
    have hlt : base.descriptor.id < s.datasets.length := (List.getElem?_eq_some_iff.mp hd).1
    refine ⟨_, List.getElem?_set_self hlt, fun dict hdict => ?_⟩
    cases d with
    | extension x => cases hdict
    | dictionary dict₀ =>
      cases hdict
      obtain ⟨f, hf, hspec⟩ := Option.map_eq_some_iff.mp hprimary
      exact ⟨f, (hs.grounded _ _ hd).sized.primaryIs (hs.sound _ _ hd).coherent hf, hspec⟩

theorem datasetSteps_rooted : DatasetSteps (Carries (Rooted (σ := σ))) where
  same {s s'} hsame h := by
    have hst (id : Nat) : s'.stored? id = s.stored? id := by rw [stored?, hsame, stored?]
    have hext (id : Nat) : s'.extension? id = s.extension? id := by
      rw [extension?, hst, extension?]
    refine ⟨(datasetSteps_rest.same hsame h.sound).1, fun id d hd => ?_, fun {id x base} hx hbase => ?_⟩
    · rw [hst] at hd
      exact h.grounded id d hd
    · rw [hext] at hx
      rw [Roots, hst]
      exact h.heirs hx hbase
  derive id step hstep := by
    intro s h
    have hsound := (onFields_rests id hstep s h.sound).1
    rw [onFields_eq] at hsound ⊢
    cases hd : s.stored? id with
    | none => exact h
    | some d =>
      rw [hd] at hsound
      have hc := (h.sound id d hd).coherent
      have hground := h.grounded id d hd
      have hr := hstep d.dataset.fields
      refine h.set hd hsound (hground.setFields hr.retains)
        (fun x => StoredDataset.descends_setFields hground hc hr) fun x base hx hbase => ?_
      cases d with
      | dictionary dict => cases hx
      | extension y =>
        have hbase : y.base = some base := by
          cases hx
          exact hbase
        obtain ⟨hext, b, hb, hdescends⟩ := h.heirs (extension?_eq_some.mpr hd) hbase
        exact ⟨hext, b, hb, StoredDataset.setFields_descends (hr.derives hc).2 hx hdescends⟩

theorem findBase_knows [Outside σ] (hs : s.Rooted) {via : Via} {key path : String} {base : Base}
    (h : (findBase via key path s).1 = .ok base) : (findBase via key path s).2.Knows base := by
  have hfound := datasetSteps_rooted.reading.search via globalDomain key s hs
  unfold findBase at h ⊢
  rw [bind_apply] at h ⊢
  generalize findDictionary via globalDomain key s = found at h hfound ⊢
  obtain ⟨answer, s'⟩ := found
  rcases answer with e | _ | e
  · cases h
  · cases h
  · exact checkBase_knows hfound h

/-! ### Steps -/

theorem Rooted.addExtension (h : s.Rooted) (domain : Int) (spec : DatasetSpec) (via : Via)
    {found : Except DatasetError Base} (hfound : ∀ base, found = .ok base → s.Knows base) :
    (addExtension domain spec via found s).2.Rooted := by
  refine h.append (moves_append (Q := StoredDataset.Rests)
    (StoredDataset.sound_extension domain spec via found) h.sound).1
    (StoredDataset.grounded_extension _ domain spec via found) fun x base hx hbase => ?_
  cases hx
  cases found with
  | error e => cases hbase
  | ok base' =>
    cases hbase
    exact (hfound base' rfl).roots (Extension.ofSpec_keyedBy _ domain spec via base')

theorem Rooted.baseDictionary [Outside σ] (h : s.Rooted) (id : Nat) :
    (baseDictionary id s).2.Rooted := by
  by_cases hpending : ∃ x, s.extension? id = some x ∧ x.base = none
  · obtain ⟨x, hx, hb⟩ := hpending
    obtain ⟨y, hy, hyb, -, heq⟩ := baseDictionary_pending h.sound hx hb
    have hsound := (baseDictionary_advances id s h.sound).1
    have hfound := datasetSteps_rooted.lookupSteps.findBase x.via x.baseKey x.descriptor.path s h
    have hknows (base : Base) (hbase : (findBase x.via x.baseKey x.descriptor.path s).1 = .ok base) :
        (findBase x.via x.baseKey x.descriptor.path s).2.Knows base := findBase_knows h hbase
    rw [heq] at hsound ⊢
    generalize findBase x.via x.baseKey x.descriptor.path s = found at hy hsound hfound hknows ⊢
    obtain ⟨answer, s'⟩ := found
    refine hfound.set hy hsound ((hfound.grounded _ _ hy).resolved answer)
      (fun z hz dict hdict => by cases hdict) fun z base hz hbase => ?_
    cases hz
    cases answer with
    | error e =>
      rw [show (y.resolved (.error e)).base = y.base from rfl, hyb] at hbase
      cases hbase
    | ok base' =>
      cases hbase
      exact (hknows base' rfl).roots (y.resolved_keyedBy base')
  · rw [baseDictionary_known hpending]
    exact h

/-- Whatever makes or changes a dataset keeps the keys. -/
theorem historySteps_rooted [Outside σ] : HistorySteps (Carries (Rooted (σ := σ))) where
  toDatasetSteps := datasetSteps_rooted
  dictionary domain spec via := by
    intro s h
    refine h.append (addDictionary_rests domain spec via s h.sound).1
      (StoredDataset.grounded_dictionary _ domain spec via) fun x base hx => ?_
    cases hx
  new domain spec via := by
    intro s h
    have hfound := datasetSteps_rooted.lookupSteps.findBase via (Extension.baseKeyOf spec)
      (extensionPath (Extension.baseKeyOf spec)) s h
    exact hfound.addExtension domain spec via fun base hbase => findBase_knows h hbase
  extend domain base spec := by
    intro s h
    have hfound := datasetSteps_rooted.lookupSteps.checkBase
      (extensionPath (Extension.baseKeyOf spec)) base s h
    exact hfound.addExtension domain spec .default fun base hbase => checkBase_knows h hbase
  late id := fun s h => h.baseDictionary id

end Store

/-- In every scene that can come about, extensions descend from their bases. -/
theorem Scene.rooted_after {σ : Type} [Outside σ] (outside : σ) (calls : List (SceneCall σ)) :
    (after step calls (start outside)).world.store.Rooted := by
  have hstart : (start outside).world.store.Rooted :=
    ⟨(start_sound outside).store, fun _ _ hd => (by cases hd), fun hx => by cases hx⟩
  exact after_over Store.historySteps_rooted calls (start outside) hstart

/-- In every scene that can come about, extensions are keyed as their bases are. -/
theorem Scene.keyed_after {σ : Type} [Outside σ] (outside : σ) (calls : List (SceneCall σ)) :
    (after step calls (start outside)).world.store.Keyed :=
  (rooted_after outside calls).keyed

end TenantSchema
