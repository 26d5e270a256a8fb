import TenantSchema.Proofs.Assoc
import TenantSchema.Proofs.SlotIntegrity

/-!
# Bases found early and late

An extension gets its fields from its base either when it is made or later on, by rebuilding its
field list. Both ways lead to the same fields and keys. Only the header tells them apart: it is
fixed when the extension is made, and an extension without its base is named by the key that it
looks for.
-/

namespace TenantSchema

/-! ### Definitions by name -/

namespace Fields

variable {fs fs' : Fields} {name : String}

/-- At most one definition has the name. -/
def Unambiguous (fs : Fields) (name : String) : Prop :=
  ∀ a ∈ fs.specs, ∀ b ∈ fs.specs,
    Text.lower a.id = Text.lower name → Text.lower b.id = Text.lower name → a = b

/-- The first definition of a name. -/
def specNamed? (fs : Fields) (name : String) : Option FieldSpec :=
  fs.specs.find? (Text.lower ·.id = Text.lower name)

def primarySpec? (fs : Fields) : Option FieldSpec :=
  if fs.keys.primary.isEmpty then none else fs.specNamed? fs.keys.primary

theorem Agrees.primarySpec? (h : fs.Agrees fs') : fs'.primarySpec? = fs.primarySpec? := by
  unfold Fields.primarySpec? specNamed?
  rw [h.keys, h.specs]

theorem Distinct.unambiguous (h : fs.Distinct) (name : String) : fs.Unambiguous name :=
  fun _ ha _ hb hna hnb => List.inj_on_of_nodup_map h ha hb (hna.trans hnb.symm)

/-- A name that is not shared leads to its definition. -/
theorem Coherent.byName_spec (hc : fs.Coherent) (hu : fs.Unambiguous name) :
    (Fields.byName name fs).1.map (·.spec) = fs.specNamed? name := by
  cases hb : (Fields.byName name fs).1 with
  | none =>
    have hno := hc.byName_eq_none.mp hb
    refine (List.find?_eq_none.mpr fun spec hspec => ?_).symm
    simpa using hno spec hspec
  | some f =>
    obtain ⟨⟨i, hi⟩, hn⟩ := hc.byName_some hb
    obtain ⟨-, -, -, hs⟩ := fieldAt?_spec hi
    have hmem := List.mem_of_getElem? hs
    have hname : Text.lower f.spec.id = Text.lower name := hn
    refine (find?_eq_some_of_unique hmem (decide_eq_true hname) fun b hb hbn => ?_).symm
    exact hu b hb f.spec hmem (of_decide_eq_true hbn) hname

/-- Lists of the same definitions lead to the same ones by name. -/
theorem Coherent.byName_congr (hc : fs.Coherent) (hc' : fs'.Coherent) (hs : fs'.specs = fs.specs)
    (hu : fs.Unambiguous name) :
    (Fields.byName name fs').1.map (·.spec) = (Fields.byName name fs).1.map (·.spec) := by
  have hu' : fs'.Unambiguous name := by
    unfold Unambiguous
    rw [hs]
    exact hu
  rw [hc.byName_spec hu, hc'.byName_spec hu']
  unfold specNamed?
  rw [hs]

theorem Coherent.primaryField_spec (hc : fs.Coherent) (hu : fs.Unambiguous fs.keys.primary) :
    (Fields.primaryField fs).1.map (·.spec) = fs.primarySpec? := by
  rw [primaryField_eq]
  unfold primarySpec?
  split
  · rfl
  · exact hc.byName_spec hu

end Fields

/-! ### Finding a base -/

namespace Store

variable {σ : Type} {s s' : Store σ} {id : Nat} {d : StoredDataset} {base : Base}

/-- Dictionaries stay at their field lists. -/
theorem Advances.dictionary (h : s.Advances s') (hs : s.Sound) {b : Dataset}
    (hb : s.stored? id = some (.dictionary b)) :
    ∃ d', s'.stored? id = some d' ∧ (StoredDataset.dictionary b).Rests d' := by
  obtain ⟨d', hd', hq⟩ := (h hs).2 id _ hb
  refine ⟨d', hd', hq.rests ?_⟩
  rintro ⟨x, hx, -⟩
  cases hx

theorem baseCheck_ok {path : String} {e : Descriptor} {primary : Option Field}
    (h : Base.check path e primary = .ok base) :
    e.isExtendable = true ∧ base.descriptor = e ∧ primary.map (·.spec) = some base.primary := by
  unfold Base.check at h
  split at h
  · next f hext =>
    cases h
    exact ⟨hext, rfl, rfl⟩
  · cases h

theorem checkBase_ok {path : String} {e : Descriptor} (h : (checkBase path e s).1 = .ok base) :
    e.isExtendable = true ∧ base.descriptor = e ∧
      (onFields e.id Fields.primaryField s).1.map (·.spec) = some base.primary ∧
      (checkBase path e s).2 = (onFields e.id Fields.primaryField s).2 := by
  unfold checkBase at h ⊢
  cases hext : e.isExtendable with
  | true =>
    rw [hext] at h
    obtain ⟨-, hdesc, hprimary⟩ := baseCheck_ok h
    exact ⟨rfl, hdesc, hprimary, rfl⟩
  | false =>
    rw [hext] at h
    have := (baseCheck_ok h).1
    rw [hext] at this
    cases this

variable [Outside σ]

theorem findBase_ok {via : Via} {key path : String} (h : (findBase via key path s).1 = .ok base) :
    ∃ s', s.Rests s' ∧
      (onFields base.descriptor.id Fields.primaryField s').1.map (·.spec) = some base.primary := by
  have hrest : s.Rests (findDictionary via globalDomain key s).2 :=
    steps_rest.findDictionary steps_rest.register via globalDomain key s
  unfold findBase at h
  rw [bind_apply] at h
  refine ⟨_, hrest, ?_⟩
  generalize findDictionary via globalDomain key s = found at h
  obtain ⟨answer, s'⟩ := found
  rcases answer with e | _ | e
  · cases h
  · cases h
  · obtain ⟨-, hdesc, hprimary, -⟩ := checkBase_ok h
    rw [hdesc]
    exact hprimary

/-- The primary field of a base is the one that its dictionary has by its definitions. -/
theorem Sound.findBase_primary (hs : s.Sound) (hd : s.stored? id = some d)
    (hu : d.dataset.fields.Distinct) {via : Via} {key path : String}
    (h : (findBase via key path s).1 = .ok base) (hid : base.descriptor.id = id) :
    d.dataset.fields.primarySpec? = some base.primary := by
  obtain ⟨s', hrest, hprimary⟩ := findBase_ok h
  obtain ⟨hs', hmoved⟩ := hrest hs
  obtain ⟨d', hd', hq⟩ := hmoved id d hd
  have hc := (hs' id d' hd').coherent
  have hu' := (hq.fields.distinct hu).unambiguous d'.dataset.fields.keys.primary
  rw [hid, onFields_eq, hd'] at hprimary
  rw [← hq.fields.primarySpec?, ← hc.primaryField_spec hu']
  exact hprimary

/-! ### Early and late extensions -/

theorem createExtension?_eq (domain : Int) (spec : DatasetSpec) (via : Via) (s : Store σ) :
    createExtension? domain spec via none s =
      if domain < 1 then (none, s)
      else
        let key := Extension.baseKeyOf spec
        let found := findBase via key (extensionPath key) s
        let added := addExtension domain spec via found.1 found.2
        (some added.1, added.2) := by
  unfold createExtension?
  split <;> rfl

/-- A new extension is stored as what its search for a base makes of it. -/
theorem createExtension?_some {domain : Int} {spec : DatasetSpec} {via : Via} {e : Descriptor}
    (h : (createExtension? domain spec via none s).1 = some e) :
    ∃ found, (findBase via (Extension.baseKeyOf spec)
        (extensionPath (Extension.baseKeyOf spec)) s).1 = found ∧
      (createExtension? domain spec via none s).2.extension? e.id =
        some (.ofSpec e.id domain spec via found) := by
  rw [createExtension?_eq] at h ⊢
  split at h
  · cases h
  · next hdomain =>
    rw [if_neg hdomain]
    refine ⟨_, rfl, ?_⟩
    dsimp only at h ⊢
    generalize findBase via (Extension.baseKeyOf spec)
      (extensionPath (Extension.baseKeyOf spec)) s = found at h ⊢
    cases h
    exact extension?_eq_some.mpr List.getElem?_concat_length

/-- A base that is found late rebuilds the extension that was looking for it. -/
theorem baseDictionary_ok {x : Extension} (hs : s.Sound) (hx : s.extension? id = some x)
    (hb : x.base = none) {e : Descriptor} (h : (baseDictionary id s).1 = .ok e) :
    ∃ base y, base.descriptor = e ∧
      (findBase x.via x.baseKey x.descriptor.path s).1 = .ok base ∧
      (StoredDataset.extension x).Rests (.extension y) ∧
      (baseDictionary id s).2.extension? id = some (y.resolved (.ok base)) := by
  obtain ⟨y, hy, -, hrest, heq⟩ := baseDictionary_pending hs hx hb
  rw [heq] at h ⊢
  dsimp only at h ⊢
  generalize findBase x.via x.baseKey x.descriptor.path s = found at h hy ⊢
  obtain ⟨answer, s'⟩ := found
  cases answer with
  | error e => cases h
  | ok base =>
    cases h
    refine ⟨base, y, rfl, rfl, hrest, extension?_eq_some.mpr ?_⟩
    exact List.getElem?_set_self (List.getElem?_eq_some_iff.mp hy).1

end Store

namespace Extension

/-- The primary field comes first, and no other field has its name. -/
theorem merge_unambiguous (primary : FieldSpec) (custom : List FieldSpec) :
    ∀ a ∈ merge primary custom, Text.lower a.id = Text.lower primary.id → a = primary := by
  intro a ha hn
  rcases List.mem_cons.mp ha with rfl | ha
  · rfl
  · have hne := (List.mem_filter.mp ha).2
    simp [Text.eqFold, hn] at hne

/-- A late extension has the fields and keys of an early one. Its header is the one that it was
made with, so its name is the key that it looked its base up by. -/
structure MatchesEarly (late : Extension) (key : String) (base : Descriptor) (early : Extension) :
    Prop where
  found : late.base = some base ∧ early.base = some base
  specs : late.dataset.fields.specs = early.dataset.fields.specs
  keys : late.dataset.fields.keys = early.dataset.fields.keys
  primaryField : (Fields.primaryField late.dataset.fields).1.map (·.spec) =
    (Fields.primaryField early.dataset.fields).1.map (·.spec)
  displayField : late.dataset.fields.Distinct →
    (Fields.displayField late.dataset.fields).1.map (·.spec) =
      (Fields.displayField early.dataset.fields).1.map (·.spec)
  toSpec : late.toSpec = { early.toSpec with name := key, path := extensionPath key }
  late_header : late.descriptor.name = key ∧ late.descriptor.path = extensionPath key
  early_header : early.descriptor.name = base.name ∧ early.descriptor.path = extensionPath base.name
  /-- Nothing tells the two apart exactly if the key is the name of the base. -/
  same_iff : (late.descriptor.name = early.descriptor.name ∧
    late.descriptor.path = early.descriptor.path ∧ late.toSpec = early.toSpec) ↔ key = base.name

theorem resolved_matchesEarly {i j : Nat} {domain : Int} {spec : DatasetSpec} {via : Via}
    {e : DatasetError} {y : Extension} {base : Base}
    (hrest : (StoredDataset.extension (.ofSpec i domain spec via (.error e))).Rests (.extension y))
    (hc : (y.resolved (.ok base)).dataset.fields.Coherent) :
    (y.resolved (.ok base)).MatchesEarly (baseKeyOf spec) base.descriptor
      (.ofSpec j domain spec via (.ok base)) := by
  have hcustom : y.custom = spec.fields := by
    have hmade := Option.some.inj hrest.made
    exact congrArg (·.2.1) hmade
  have hdesc : y.dataset.descriptor =
      (Dataset.ofSpec i .extension domain (datasetSpec spec (.error e)) via).descriptor :=
    hrest.descriptor
  have hspecs : (y.resolved (.ok base)).dataset.fields.specs =
      (ofSpec j domain spec via (.ok base)).dataset.fields.specs := by
    show merge base.primary y.custom = merge base.primary spec.fields
    rw [hcustom]
  have hkeys : (y.resolved (.ok base)).dataset.fields.keys =
      (ofSpec j domain spec via (.ok base)).dataset.fields.keys := rfl
  have hc' : (ofSpec j domain spec via (.ok base)).dataset.fields.Coherent :=
    Fields.ofSpecs_coherent _ _ _ _
  have hname : (y.resolved (.ok base)).descriptor.name = baseKeyOf spec :=
    congrArg Descriptor.name hdesc
  have hpath : (y.resolved (.ok base)).descriptor.path = extensionPath (baseKeyOf spec) :=
    congrArg Descriptor.path hdesc
  have htoSpec : (y.resolved (.ok base)).toSpec =
      { (ofSpec j domain spec via (.ok base)).toSpec with
        name := baseKeyOf spec, path := extensionPath (baseKeyOf spec) } := by
    have hfields := congrArg (fun specs => ({ y.dataset.toSpec with
      fields := specs, primary := base.primary.id, display := base.primary.id } : DatasetSpec)) hspecs
    refine hfields.trans ?_
    unfold Dataset.toSpec
    rw [hdesc]
    rfl
  refine ⟨⟨rfl, rfl⟩, hspecs, hkeys, ?_, fun hd => ?_, htoSpec, ⟨hname, hpath⟩, ⟨rfl, rfl⟩, ?_⟩
  · rw [Fields.primaryField_eq, Fields.primaryField_eq, hkeys]
    split
    · rfl
    · refine hc'.byName_congr hc hspecs fun a ha b hb hna hnb => ?_
      rw [merge_unambiguous base.primary spec.fields a ha hna,
        merge_unambiguous base.primary spec.fields b hb hnb]
  · have hd' : (ofSpec j domain spec via (.ok base)).dataset.fields.Distinct := by
      unfold Fields.Distinct at hd ⊢
      rw [← hspecs]
      exact hd
    rw [Fields.displayField_eq, Fields.displayField_eq, hkeys]
    split
    · rfl
    · exact hc'.byName_congr hc hspecs (hd'.unambiguous _)
  · constructor
    · rintro ⟨hsame, -, -⟩
      exact hname.symm.trans hsame
    · intro hkey
      refine ⟨hname.trans hkey, hpath.trans (congrArg extensionPath hkey), ?_⟩
      rw [htoSpec, hkey]
      rfl

end Extension

/-! ### The main statement -/

namespace Scene

variable {σ : Type} [Outside σ] {s t : Scene σ} {domain : Int} {spec : DatasetSpec} {via : Via}

/-- Whenever a dictionary with distinct field names is taken for a base, its primary field is the
same. -/
theorem Sound.base_primary (hs : s.Sound) {id : Nat} {dict : Dataset}
    (hdict : s.world.store.stored? id = some (.dictionary dict)) (hd : dict.fields.Distinct)
    (ha : s.world.Advances t.world) {via : Via} {key path : String} {base : Base}
    (hfound : (Store.findBase via key path t.world.store).1 = .ok base)
    (hbase : base.descriptor = dict.descriptor) :
    dict.fields.primarySpec? = some base.primary := by
  obtain ⟨d', hd', hq⟩ := Store.Advances.dictionary ha hs.store hdict
  have hdist : d'.dataset.fields.Distinct := hq.fields.distinct hd
  have hid : base.descriptor.id = id := by
    rw [hbase]
    exact (hs.store id _ hdict).numbered
  refine hq.fields.primarySpec?.symm.trans ?_
  exact (ha hs.store).1.findBase_primary hd' hdist hfound hid

/-- An extension that still has no base is the one that was made without it. -/
theorem Sound.pending_since (hs : s.Sound) {later : List (SceneCall σ)}
    (ht : t = after step (.createExtension domain spec via none :: later) s) {d : Descriptor}
    (hd : (Store.createExtension? domain spec via none s.world.store).1 = some d) {x : Extension}
    (hx : t.world.store.extension? d.id = some x) (hpending : x.base = none) :
    ∃ e, (StoredDataset.extension (.ofSpec d.id domain spec via (.error e))).Rests
      (.extension x) := by
  obtain ⟨found, -, hmade⟩ := Store.createExtension?_some hd
  have hmade := Store.extension?_eq_some.mp hmade
  have hs₁ : (s.next (.createExtension domain spec via none)).Sound := (next_advances _ s hs).2
  have hlater := after_advances later _ hs₁
  rw [after_cons] at ht
  change t = after step later (s.next (.createExtension domain spec via none)) at ht
  rw [← ht] at hlater
  obtain ⟨ha, hst⟩ := hlater
  obtain ⟨d', hd', hq⟩ := (ha hs₁.store).2 d.id _ hmade
  have hx := Store.extension?_eq_some.mp hx
  rw [hx] at hd'
  cases hd'
  have hrest := hq.rests_of_pending (hs₁.store d.id _ hmade) (hst.store d.id _ hx)
    ⟨x, rfl, hpending⟩
  cases found with
  | error e => exact ⟨e, hrest⟩
  | ok base =>
    obtain ⟨z, hz, hnone⟩ := hrest.pending.mp ⟨x, rfl, hpending⟩
    cases hz
    cases hnone

end Scene

/-- The base of an extension, a dictionary with distinct field names, is found late in one course of
events and at once in another. The two extensions match. -/
theorem late_base_matches_early {σ : Type} [Outside σ] (outside : σ)
    (setup later other : List (SceneCall σ)) (domain : Int) (spec : DatasetSpec) (via : Via)
    (s t u : Scene σ) (hs : s = after Scene.step setup (Scene.start outside))
    (ht : t = after Scene.step (.createExtension domain spec via none :: later) s)
    (hu : u = after Scene.step other s)
    (id : Nat) (dict : Dataset) (hdict : s.world.store.stored? id = some (.dictionary dict))
    (hdistinct : dict.fields.Distinct)
    (d : Descriptor) (hd : (Store.createExtension? domain spec via none s.world.store).1 = some d)
    (x : Extension) (hx : t.world.store.extension? d.id = some x) (hpending : x.base = none)
    (hlate : (Store.baseDictionary d.id t.world.store).1 = .ok dict.descriptor)
    (e : Descriptor) (he : (Store.createExtension? domain spec via none u.world.store).1 = some e)
    (y : Extension)
    (hy : (Store.createExtension? domain spec via none u.world.store).2.extension? e.id = some y)
    (hearly : y.base = some dict.descriptor) :
    ∃ z, (Store.baseDictionary d.id t.world.store).2.extension? d.id = some z ∧
      z.MatchesEarly (Extension.baseKeyOf spec) dict.descriptor y := by
  have hsound : s.Sound := hs ▸ Scene.sound_after outside setup
  obtain ⟨hst, hsoundt⟩ := ht ▸ Scene.after_advances _ s hsound
  obtain ⟨hsu, -⟩ := hu ▸ Scene.after_advances _ s hsound
  -- the extension that had to wait
  obtain ⟨err, hrest⟩ := hsound.pending_since ht hd hx hpending
  obtain ⟨base, x', hbase, hfound, hrest', hz⟩ :=
    Store.baseDictionary_ok hsoundt.store hx hpending hlate
  have hprimary := hsound.base_primary hdict hdistinct hst hfound hbase
  have hc : (x'.resolved (.ok base)).dataset.fields.Coherent :=
    ((Store.baseDictionary_advances d.id t.world.store hsoundt.store).1 d.id _
      (Store.extension?_eq_some.mp hz)).coherent
  -- the extension that had not
  obtain ⟨found, hfound', hmade⟩ := Store.createExtension?_some he
  rw [hy] at hmade
  cases hmade
  cases found with
  | error err' => cases hearly
  | ok base' =>
    have hbase' : base'.descriptor = dict.descriptor := Option.some.inj hearly
    have hprimary' := hsound.base_primary hdict hdistinct hsu hfound' hbase'
    have heq : base' = base := by
      rw [hprimary] at hprimary'
      cases base
      cases base'
      cases hprimary'
      cases hbase
      cases hbase'
      rfl
    refine ⟨_, hz, ?_⟩
    rw [← hbase, heq]
    exact Extension.resolved_matchesEarly (IsTrans.trans _ _ _ hrest hrest') hc

/-! ### A base that is looked up by its path -/

namespace PathKey

/-- A dictionary whose path is not its name. -/
def contacts : DatasetSpec :=
  { name := "contacts", path := "crm/contacts", fields := [.ofKind "id" .bool], primary := "id"
    extendable := true }

def dictionary : Dataset := .ofSpec 0 .dictionary 0 contacts .nowhere

/-- An extension that goes by the path of its base. -/
def vip : DatasetSpec := { path := "crm/contacts", fields := [.ofKind "vip" .bool] }

/-- From now on the table knows the dictionary. -/
def publish : SceneCall Directory :=
  .change fun o => { o with tables := o.tables.map (·.put "crm/contacts" dictionary.descriptor) }

def start : Scene Directory :=
  after Scene.step [.addDictionary 0 contacts .nowhere] (Scene.start LateBase.emptyTable)

/-- The extension misses its base twice. -/
def late : Scene Directory :=
  after Scene.step (.createExtension 7 vip (.table 0) none :: [.baseDictionary 1, publish]) start

def early : Scene Directory := after Scene.step [publish] start

/-- The extension as it is made in a scene. -/
def created (s : Scene Directory) : Option Descriptor × Store Directory :=
  Store.createExtension? 7 vip (.table 0) none s.world.store

/-- Without its base, the extension is named by the key. -/
def waiting : Descriptor :=
  { id := 1, kind := .extension, domain := 7, name := "crm/contacts"
    path := "extensions/crm/contacts" }

/-- With its base, the extension is named after it. -/
def settled : Descriptor :=
  { id := 1, kind := .extension, domain := 7, name := "contacts", path := "extensions/contacts" }

theorem pending_there : (late.world.store.extension? 1).isSome = true := by decide +kernel

theorem early_there : ((created early).2.extension? 1).isSome = true := by decide +kernel

end PathKey

open PathKey in
theorem late_contacts_match_early :
    ∃ z y, (Store.baseDictionary 1 late.world.store).2.extension? 1 = some z ∧
      (created early).2.extension? 1 = some y ∧
      z.MatchesEarly "crm/contacts" dictionary.descriptor y := by
  have hdict : start.world.store.stored? 0 = some (.dictionary dictionary) := rfl
  have hdistinct : dictionary.fields.Distinct := by decide +kernel
  have hwaiting : (created start).1 = some waiting := by decide +kernel
  have hx := (Option.some_get pending_there).symm
  have hpending : (Option.get _ pending_there).base = none := by decide +kernel
  have hlate : (Store.baseDictionary 1 late.world.store).1 = .ok dictionary.descriptor := by
    decide +kernel
  have hsettled : (created early).1 = some settled := by decide +kernel
  have hy := (Option.some_get early_there).symm
  have hearly : (Option.get _ early_there).base = some dictionary.descriptor := by decide +kernel
  obtain ⟨z, hz, hmatch⟩ := late_base_matches_early LateBase.emptyTable
    [.addDictionary 0 contacts .nowhere] [.baseDictionary 1, publish] [publish] 7 vip (.table 0)
    start late early rfl rfl rfl 0 dictionary hdict hdistinct waiting hwaiting _ hx hpending
    hlate settled hsettled _ hy hearly
  exact ⟨z, _, hz, hy, hmatch⟩

open PathKey in
/-- One and the same specification: found late, the base leaves the extension the name and the path
of the key, although the extension has found its base by then. -/
theorem late_contacts_keep_key :
    ((Store.baseDictionary 1 late.world.store).2.extension? 1).map
        (fun x => (x.base, x.descriptor.name, x.descriptor.path, x.toSpec.name)) =
      some (some dictionary.descriptor, "crm/contacts", "extensions/crm/contacts",
        "crm/contacts") ∧
    ((created early).2.extension? 1).map
        (fun x => (x.base, x.descriptor.name, x.descriptor.path, x.toSpec.name)) =
      some (some dictionary.descriptor, "contacts", "extensions/contacts", "contacts") := by
  decide +kernel

end TenantSchema
