import TenantSchema.Proofs.GenericForm
import TenantSchema.Proofs.PresentOnWire
import TenantSchema.Proofs.RecreatedExtensions

/-!
# What the generic form of a record holds

A record that is current lists all that has been written to it and is not null, by the names of its
fields. An extension leaves out its first field, the key that it has from its base. Nothing in the
generic form is null, since no type gives a value that is missing on the wire, and taking it leaves
the record as it is.
-/

namespace TenantSchema

namespace Fields

variable {fs : Fields} {f : Field}

theorem all_of_first (hf : fs.fieldAt? 0 = some f) : fs.all = f :: fs.all.tail := by
  refine (List.cons_head?_tail ?_).symm
  rw [Option.mem_def, List.head?_eq_getElem?, getElem?_all, hf]

/-- Apart from the first field there are the others. -/
theorem apartFrom_first (hf : fs.fieldAt? 0 = some f) :
    Record.apartFrom (some f) fs.all = fs.all.tail := by
  have htail : ∀ g ∈ fs.all.tail, (!(some f).any (·.same g)) = true := by
    intro g hg
    obtain ⟨i, hi⟩ := List.mem_iff_getElem?.mp hg
    rw [List.getElem?_tail, getElem?_all] at hi
    have hother : ¬ f.same g = true := mt (same_iff_num hf hi).mp (Nat.succ_ne_zero i).symm
    simpa using hother
  unfold Record.apartFrom
  rw [all_of_first hf, List.filter_cons_of_neg (by simp [Field.same_self])]
  exact List.filter_eq_self.mpr htail

end Fields

namespace Store

variable {σ : Type} {s s' : Store σ} {d : Descriptor}

/-- A dictionary, or an extension that has found its base, a dictionary of the store. -/
def Based (s : Store σ) (d : Descriptor) : Prop :=
  d.kind = .extension → ∃ x base dict, s.extension? d.id = some x ∧ x.base = some base ∧
    s.stored? base.id = some (.dictionary dict)

/-- A base that has been found is there for good. -/
theorem Based.later (h : s.Based d) (hs : s.Sound) (ha : s.Advances s')
    (hc : Moves StoredDataset.Continues s s') : s'.Based d := by
  intro hk
  obtain ⟨x, base, dict, hx, hbase, hdict⟩ := h hk
  obtain ⟨y, hy, hcontinues⟩ := hc.continues hs hx
  obtain ⟨dict', hdict'⟩ := ha.exists_dictionary hs hdict
  exact ⟨y, base, dict', hy, hcontinues.base hbase, hdict'⟩

/-- The field that an extension has from its base. -/
structure Inherited (s : Store σ) (id : Nat) (fs : Fields) (f : Field) : Prop where
  first : fs.fieldAt? 0 = some f
  primary : (onFields id Fields.primaryField s).1 = some f
  based : ∃ x base, s.extension? id = some x ∧ x.base = some base ∧
    (onFields base.id Fields.primaryField s).1.map (·.spec) = some f.spec

theorem Rooted.inherited (h : s.Rooted) {fs : Fields} (hb : s.Based d) (hk : d.kind = .extension)
    (hf : s.HasFields d.id fs) : ∃ f, s.Inherited d.id fs f := by
  obtain ⟨x, base, dict, hx, hbase, hdict⟩ := hb hk
  obtain ⟨-, f, hprimary, hkeyed⟩ := h.keyed_of_heir hx hbase hdict
  have hspecs := h.primary_of_heir hx hbase hdict
  have hx' := extension?_eq_some.mp hx
  obtain ⟨y, hy, ha⟩ := hf
  rw [hx'] at hy
  cases hy
  obtain ⟨g, hg, -, hspec⟩ := hkeyed.fieldAt?_zero
  refine ⟨g, ?_, ?_, x, base, hx, hbase, ?_⟩
  · rw [← ha.fieldAt?]
    exact hg
  · rw [onFields_eq, hx']
    show (Fields.primaryField x.dataset.fields).1 = _
    rw [hkeyed.primaryField_first (h.sound _ _ hx').coherent hprimary.name_ne_empty, hg]
  · rw [hspecs, hkeyed.specs, hspec]
    rfl

end Store

namespace LoggedRecord

variable {σ : Type} {w : World (Store σ)} {l : LoggedRecord}

theorem Sound.hasFields (h : l.Sound w.store) (hcur : l.record.isCurrent w = true) :
    w.store.HasFields l.record.descriptor.id l.origin :=
  Record.agrees_of_isCurrent h.follows hcur

/-- The fields that the generic form covers: all of a dictionary, and all of an extension but the
first. -/
def covered (l : LoggedRecord) : List Field :=
  match l.record.descriptor.kind with
  | .dictionary => l.origin.all
  | .extension => l.origin.all.tail

/-- The wire forms of the values that are not null, in the order of the fields. -/
def genericForm (l : LoggedRecord) : WireMap := Record.members (l.record.filled l.covered)

theorem covered_sublist (l : LoggedRecord) : l.covered.Sublist l.origin.all := by
  unfold covered
  cases l.record.descriptor.kind with
  | dictionary => exact List.Sublist.refl _
  | extension => exact List.tail_sublist _

/-- The names in a generic form are those of its fields, some left out. -/
theorem names_sublist (l : LoggedRecord) :
    l.genericForm.names.Sublist (l.covered.map (·.name)) := by
  have hnames : l.genericForm.names = (l.record.filled l.covered).map (·.1.name) := List.map_map
  have hfields : l.covered.map (·.name) =
      (l.covered.map fun f => (f, l.record.valueOf f)).map (·.1.name) := by
    rw [List.map_map]
    rfl
  rw [hnames, hfields]
  exact List.filter_sublist.map _

/-- No field that an extension shows has the name of its first one. -/
theorem first_not_mem_names (hext : l.record.descriptor.kind = .extension)
    (hdist : l.origin.Distinct) {f : Field} (hf : l.origin.fieldAt? 0 = some f) :
    f.name ∉ l.genericForm.names := by
  have hnodup := hdist.nodup_names
  rw [Fields.all_of_first hf, List.map_cons, List.nodup_cons] at hnodup
  have htail : l.covered = l.origin.all.tail := by
    unfold covered
    rw [hext]
  exact fun hmem => hnodup.1 (htail ▸ l.names_sublist.subset hmem)

/-- What is in a generic form has been given by the type of its field. -/
theorem Sound.present (h : l.Sound w.store) : ∀ e ∈ l.genericForm, e.2 ≠ .null := by
  intro e he
  obtain ⟨write, hwrite, rfl⟩ := List.mem_map.mp he
  obtain ⟨hcovered, hvalue, hne⟩ := Record.mem_filled.mp hwrite
  have hall := Record.mem_filled.mpr ⟨l.covered_sublist.subset hcovered, hvalue, hne⟩
  obtain ⟨-, hlog, -⟩ := h.holds.written_filled hall
  exact (h.given write hlog).toWire_ne_null hne

/-- What a current record answers. -/
structure Answers [Outside σ] (w : World (Store σ)) (l : LoggedRecord) : Prop where
  get : ∀ f ∈ l.origin.all, ((l.record.get f).run w).1 = .ok (l.record.valueOf f)
  forEach : ∀ more, ((l.record.forEach more).run w).1 = .ok (visited more [] l.log.latest)
  toMap : ((l.record.toMap).run w).1 = .ok l.genericForm

/-- The generic form covers all but what has been inherited. -/
theorem Sound.toMap (h : l.Sound w.store) (hroot : w.store.Rooted)
    (hcur : l.record.isCurrent w = true) (hdist : l.origin.Distinct)
    (hb : w.store.Based l.record.descriptor) : ((l.record.toMap).run w).1 = .ok l.genericForm := by
  have hr := h.hasFields hcur
  unfold genericForm covered
  cases hk : l.record.descriptor.kind with
  | dictionary => exact h.holds.toMap_dictionary hroot.sound hr hdist hk
  | extension =>
    obtain ⟨f, hf⟩ := hroot.inherited hb hk hr
    have hinherited : (l.record.inheritedField w).1 = some f := by
      unfold Record.inheritedField
      rw [hk]
      exact hf.primary
    rw [h.holds.toMap hroot.sound hr hdist, hinherited, Fields.apartFrom_first hf.first]

theorem Sound.answers [Outside σ] (h : l.Sound w.store) (hroot : w.store.Rooted)
    (hcur : l.record.isCurrent w = true) (hdist : l.origin.Distinct)
    (hb : w.store.Based l.record.descriptor) : l.Answers w := by
  refine ⟨fun f hf => ?_, fun more => ?_, h.toMap hroot hcur hdist hb⟩
  · obtain ⟨i, hi⟩ := Fields.mem_all.mp hf
    exact h.holds.get_granted hroot.sound (h.hasFields hcur) hi
  · rw [Record.forEach_run, h.holds.entries hdist hroot.sound h.follows, hcur]
    rfl

/-- The generic form holds what has been written last to each field that it covers, under its name,
and taking it changes nothing. -/
structure Mapped [Outside σ] (s : Scene σ) (k : Nat) (l : LoggedRecord) : Prop where
  answers : l.Answers s.world
  values : ∀ f ∈ l.origin.all, l.record.valueOf f = (l.log.last? f).getD .null
  names : l.genericForm.names.Nodup
  /-- No type gives a value that is missing on the wire. -/
  present : ∀ e ∈ l.genericForm, e.2 ≠ .null
  /-- The inherited field may be set, but the generic form does not show it. -/
  inherited : l.record.descriptor.kind = .extension → ∃ f,
    s.world.store.Inherited l.record.descriptor.id l.origin f ∧ f.name ∉ l.genericForm.names
  records : (s.next (.toMap k)).records = s.records
  later : l.record.isCurrent (s.next (.toMap k)).world = true ∧
    l.Answers (s.next (.toMap k)).world

end LoggedRecord

theorem Scene.next_toMap_world {σ : Type} [Outside σ] {s : Scene σ} {k : Nat} {l : LoggedRecord}
    (hk : s.records[k]? = some l) :
    (s.next (.toMap k)).world = ((l.record.toMap).run s.world).2 := by
  show (s.read k (·.toMap)).world = _
  unfold read
  rw [hk]
  rfl

/-- Whatever has happened in a scene, a current record of a dictionary or of an extension that has
found its base has a generic form, as long as its fields have distinct names. -/
theorem current_record_mapped {σ : Type} [Outside σ] (outside : σ) (calls : List (SceneCall σ))
    (s : Scene σ) (hs : s = after Scene.step calls (Scene.start outside)) (k : Nat)
    (l : LoggedRecord) (hk : s.records[k]? = some l) (hcur : l.record.isCurrent s.world = true)
    (hdist : l.origin.Distinct) (hbased : s.world.store.Based l.record.descriptor) :
    l.Mapped s k := by
  have hsound : s.Sound := hs ▸ Scene.sound_after outside calls
  have hroot : s.world.store.Rooted := hs ▸ Scene.rooted_after outside calls
  have hl := hsound.records l (List.mem_of_getElem? hk)
  have hr := hl.hasFields hcur
  have hnames : (l.covered.map (·.name)).Nodup :=
    hdist.nodup_names.sublist (l.covered_sublist.map _)
  -- nothing in the world that the record could notice has changed after the call
  have hrecords : (s.next (.toMap k)).records = s.records := Scene.read_records k _ s
  have hrest := l.record.toMap_keeps Store.deriving_rests s.world
  rw [← Scene.next_toMap_world hk] at hrest
  have hl' := hl.advances hsound.store hrest.advances
  have hroot' := Scene.next_keeps Store.historySteps_rooted.world (.toMap k) s hroot
  have hbased' := hbased.later hsound.store hrest.advances
    (Scene.next_keeps Store.historySteps_continue.world (.toMap k) s)
  have hcur' := hl.holds.isCurrent (hr.rests hsound.store hrest)
  refine ⟨hl.answers hroot hcur hdist hbased, fun f hf => ?_,
    hnames.sublist l.names_sublist, hl.present, fun hext => ?_, hrecords, hcur',
    hl'.answers hroot' hcur' hdist hbased'⟩
  · obtain ⟨i, hi⟩ := Fields.mem_all.mp hf
    exact hl.holds.valueOf hi
  · obtain ⟨f, hf⟩ := hroot.inherited hbased hext hr
    exact ⟨f, hf, LoggedRecord.first_not_mem_names hext hdist hf.first⟩

namespace ShadowedKey

/-- A record of the extension, with the field that it has from the base set. -/
def marked : List (SceneCall Directory) :=
  [.newRecord 1, .setByName 0 "id" (.value (.int 100)), .setByName 0 "vip" (.value (.bool true))]

def markedScene : Scene Directory := after Scene.step (calls ++ marked) (Scene.start {})

theorem record_there : (markedScene.records[0]?).isSome = true := by decide +kernel

theorem marked_extension_there : (markedScene.world.store.extension? 1).isSome = true := by
  decide +kernel

theorem markedScene_based {d : Descriptor} (hd : d.id = 1) : markedScene.world.store.Based d := by
  intro _
  rw [hd]
  have hx := (Option.some_get marked_extension_there).symm
  have hbase : (Option.get _ marked_extension_there).base = some base := by decide +kernel
  obtain ⟨dict, hdict⟩ : ∃ dict, markedScene.world.store.stored? base.id = some (.dictionary dict) :=
    Store.exists_dictionary (by decide +kernel) (by decide +kernel)
  exact ⟨_, base, dict, hx, hbase, hdict⟩

end ShadowedKey

open ShadowedKey in
theorem marked_record_mapped :
    ∃ l, markedScene.records[0]? = some l ∧ l.record.touched = ["id", "vip"] ∧
      l.genericForm.names = ["vip"] ∧ l.Mapped markedScene 0 := by
  have hl := (Option.some_get record_there).symm
  have hid : (Option.get _ record_there).record.descriptor.id = 1 := by decide +kernel
  have htouched : (Option.get _ record_there).record.touched = ["id", "vip"] := by decide +kernel
  have hnames : (Option.get _ record_there).genericForm.names = ["vip"] := by decide +kernel
  have hcur : (Option.get _ record_there).record.isCurrent markedScene.world = true := by
    decide +kernel
  have hdist : (Option.get _ record_there).origin.Distinct := by decide +kernel
  have hscene : markedScene = after Scene.step (calls ++ marked) (Scene.start {}) := by
    unfold markedScene
    rfl
  exact ⟨_, hl, htouched, hnames, current_record_mapped ({} : Directory) (calls ++ marked)
    markedScene hscene 0 _ hl hcur hdist (markedScene_based hid)⟩

end TenantSchema
