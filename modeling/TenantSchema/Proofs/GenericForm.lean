import TenantSchema.Proofs.Assoc
import TenantSchema.Proofs.SlotIntegrity
import TenantSchema.Store.Directory
import TenantSchema.Proofs.WireRoundTrip

/-!
# Records and their generic form

The generic form of a record lists its values that are not null under the names of their fields, in
the order of the fields. Read into a fresh record of the same dictionary, it gives the record back,
as long as every value survives the wire.
-/

namespace TenantSchema

/-! ### Granted accesses

A record on the field list that it was made with is refused nothing but what its types refuse.
-/

/-- The dataset has these fields, whatever has been derived of them. -/
def Store.HasFields {σ : Type} (s : Store σ) (id : Nat) (fs : Fields) : Prop :=
  ∃ d, s.stored? id = some d ∧ fs.Agrees d.dataset.fields

theorem Store.HasFields.rests {σ : Type} {s s' : Store σ} {id : Nat} {fs : Fields}
    (h : s.HasFields id fs) (hs : s.Sound) (hr : s.Rests s') : s'.HasFields id fs := by
  obtain ⟨d, hd, ha⟩ := h
  obtain ⟨d', hd', hq⟩ := (hr hs).2 id d hd
  exact ⟨d', hd', ha.trans hq.fields⟩

theorem Fields.Distinct.nodup_names {fs : Fields} (h : fs.Distinct) :
    (fs.all.map (·.name)).Nodup := by
  have hnames : fs.all.map (·.name) = fs.specs.map (·.id) := by
    rw [← fs.map_spec_all, List.map_map]
    rfl
  rw [hnames]
  refine List.Nodup.of_map Text.lower ?_
  rw [List.map_map]
  exact h

namespace Record

variable {σ : Type} {w : World (Store σ)} {r : Record} {origin : Fields} {log : WriteLog}
  {i : Nat} {f : Field}

/-- The value in the slot of a field. -/
def valueOf (r : Record) (f : Field) : Value := (r.values[f.num - 1]?).getD .null

theorem Holds.valueOf (h : r.Holds origin log) (hf : origin.fieldAt? i = some f) :
    r.valueOf f = (log.last? f).getD .null := by
  obtain ⟨-, -, hnum, -⟩ := Fields.fieldAt?_spec hf
  unfold Record.valueOf
  rw [hnum]
  show (r.values[i]?).getD .null = _
  rw [h.value i f hf]
  rfl

section Granted

variable (h : r.Holds origin log) (hw : w.store.Sound)
  (hr : w.store.HasFields r.descriptor.id origin)

include h hr

theorem Holds.isCurrent : r.isCurrent w = true := by
  obtain ⟨d, hd, ha⟩ := hr
  exact (isCurrent_iff hd).mpr (ha.version.trans h.version.symm)

include hw

theorem Holds.field_found (hdist : origin.Distinct) (hf : origin.fieldAt? i = some f) :
    ((r.field f.name).run w).1 = .ok f := by
  rw [field_run, h.isCurrent hr, if_pos rfl]
  obtain ⟨d, hd, ha⟩ := hr
  have hf' : d.dataset.fields.fieldAt? i = some f := by rw [ha.fieldAt?, hf]
  dsimp only
  rw [World.onFields_answer hd, (hw _ d hd).coherent.byName_name (ha.distinct hdist) hf']

variable [Outside σ]

theorem Holds.slot_granted (hf : origin.fieldAt? i = some f) : ((r.slot f).run w).1 = .ok i := by
  obtain ⟨d, hd, ha⟩ := hr
  have hf' : d.dataset.fields.fieldAt? i = some f := by rw [ha.fieldAt?, hf]
  obtain ⟨-, hv, hnum, -⟩ := Fields.fieldAt?_spec hf'
  have hown : (World.onFields r.descriptor.id (Fields.owns f) w).1 = true := by
    rw [World.onFields_answer hd]
    exact (hw _ d hd).coherent.owns_fieldAt? hf'
  have hversion : f.version = r.version := by rw [hv, ha.version, h.version]
  have hlt := Fields.lt_of_fieldAt? hf
  have hsize := h.size
  rw [slot_run, hown]
  unfold slotAnswer
  rw [if_neg (by simp), if_neg (not_not.mpr hversion), if_neg (by omega), hnum]
  rfl

theorem Holds.get_granted (hf : origin.fieldAt? i = some f) :
    ((r.get f).run w).1 = .ok (r.valueOf f) := by
  obtain ⟨-, -, hnum, -⟩ := Fields.fieldAt?_spec hf
  rw [get_run, h.slot_granted hw hr hf]
  unfold Record.valueOf
  rw [hnum]
  rfl

/-- A write by name is granted if the type decodes the source. -/
theorem Holds.setByName_granted (hdist : origin.Distinct) (hf : origin.fieldAt? i = some f)
    {source : Source} {v : Value}
    (hv : ∀ w : World (Store σ), ((f.type.decode source).run w).1 = .ok v) :
    ((r.setByName f.name source).run w).1 = .ok (r.store i f.name v) := by
  have hrest := r.field_keeps Store.deriving_rests f.name w
  obtain ⟨-, -, hnum, -⟩ := Fields.fieldAt?_spec hf
  unfold setByName
  rw [run_bind, h.field_found hw hr hdist hf]
  dsimp only
  generalize ((r.field f.name).run w).2 = w' at hrest
  have hr' := hr.rests hw hrest
  have hnormal : ((r.normalized f source).run w').1 = .ok v := by
    unfold normalized
    rw [run_bind, h.slot_granted (hrest hw).1 hr' hf]
    show (((f.type.decode source).run ((r.slot f).run w').2).1).mapError _ = _
    rw [hv]
    rfl
  rw [set_run, hnormal, hnum]
  rfl

end Granted

/-! ### The generic form -/

/-- The fields whose value is not null, with their values. -/
def filled (r : Record) (fields : List Field) : WriteLog :=
  (fields.map fun f => (f, r.valueOf f)).filter (!·.2.isNull)

/-- The wire members that stand for some writes. -/
def members (ws : WriteLog) : WireMap := ws.map fun e => (e.1.name, e.2.toWire)

theorem mem_filled {fields : List Field} {e : Field × Value} : e ∈ r.filled fields ↔
    e.1 ∈ fields ∧ e.2 = r.valueOf e.1 ∧ e.2 ≠ .null := by
  obtain ⟨f, v⟩ := e
  have hnull : (!v.isNull) = true ↔ v ≠ .null := by
    rw [Bool.not_eq_true', ← Bool.not_eq_true, Value.isNull_iff]
  unfold filled
  rw [List.mem_filter, List.mem_map, hnull]
  constructor
  · rintro ⟨⟨g, hg, he⟩, hne⟩
    cases he
    exact ⟨hg, rfl, hne⟩
  · rintro ⟨hf, hv, hne⟩
    exact ⟨⟨f, hf, by rw [← hv]⟩, hne⟩

/-- The fields apart from the one that is left out. -/
def apartFrom (inherited : Option Field) (fields : List Field) : List Field :=
  fields.filter fun f => !inherited.any (·.same f)

/-- With distinct names, every member is put behind the others. -/
theorem membersOf_eq (r : Record) (inherited : Option Field) {m : WireMap} {fields : List Field}
    (h : (m.names ++ fields.map (·.name)).Nodup) :
    r.membersOf inherited m fields = m ++ members (r.filled (apartFrom inherited fields)) := by
  induction fields generalizing m with
  | nil => exact (List.append_nil m).symm
  | cons f rest ih =>
    rw [List.map_cons] at h
    have hname : f.name ∉ m.names := by
      intro hm
      exact (List.nodup_append.mp h).2.2 _ hm _ List.mem_cons_self rfl
    have hsub : (m.names ++ rest.map (·.name)).Nodup :=
      h.sublist ((List.Sublist.refl _).append (List.sublist_cons_self _ _))
    show (if inherited.any (·.same f) || (r.valueOf f).isNull
      then r.membersOf inherited m rest
      else r.membersOf inherited (WireMap.insert m f.name (r.valueOf f).toWire) rest) = _
    cases hsame : inherited.any (·.same f) with
    | true =>
      have hrest : apartFrom inherited (f :: rest) = apartFrom inherited rest := by
        simp [apartFrom, hsame]
      rw [hrest, Bool.true_or, if_pos rfl, ih hsub]
    | false =>
      have hrest : apartFrom inherited (f :: rest) = f :: apartFrom inherited rest := by
        simp [apartFrom, hsame]
      rw [hrest, Bool.false_or]
      cases hv : (r.valueOf f).isNull with
      | true =>
        have hskip (fields : List Field) : r.filled (f :: fields) = r.filled fields := by
          simp [filled, hv]
        rw [if_pos rfl, hskip, ih hsub]
      | false =>
        have hput (fields : List Field) :
            r.filled (f :: fields) = (f, r.valueOf f) :: r.filled fields := by
          simp [filled, hv]
        rw [if_neg Bool.false_ne_true, hput, WireMap.insert_of_not_mem hname, ih ?_]
        · rw [List.append_assoc]
          rfl
        · rw [WireMap.names, List.map_append, List.append_assoc]
          exact h

theorem toMap_run (r : Record) (w : World (Store σ)) :
    (r.toMap).run w =
      if r.isCurrent w then
        let inherited := r.inheritedField w
        let found := World.onFields r.descriptor.id Fields.toList inherited.2
        (if found.1.any (·.version ≠ r.version) then .error r.staleError
          else .ok (r.membersOf inherited.1 [] found.1), found.2)
      else (.error r.staleError, w) := by
  unfold toMap
  rw [run_bind, checkVersion_run]
  cases r.isCurrent w with
  | false => rfl
  | true =>
    simp only [if_true, run_lift_bind]
    split <;> rfl

/-- The generic form of a record on its own field list. -/
theorem Holds.toMap (h : r.Holds origin log) (hw : w.store.Sound)
    (hr : w.store.HasFields r.descriptor.id origin) (hdist : origin.Distinct) :
    ((r.toMap).run w).1 =
      .ok (members (r.filled (apartFrom (r.inheritedField w).1 origin.all))) := by
  have hrest := r.inheritedField_keeps Store.deriving_rests w
  rw [toMap_run, h.isCurrent hr, if_pos rfl]
  generalize r.inheritedField w = inherited at hrest
  obtain ⟨d, hd, ha⟩ := hr.rests hw hrest
  dsimp only
  rw [World.onFields_answer hd, ((hrest hw).1 _ d hd).coherent.toList, ha.all]
  have hversion : origin.all.any (·.version ≠ r.version) = false := by
    rw [List.any_eq_false]
    intro f hf
    obtain ⟨i, hi⟩ := Fields.mem_all.mp hf
    obtain ⟨-, hv, -, -⟩ := Fields.fieldAt?_spec hi
    simp [hv, h.version]
  rw [if_neg (by rw [hversion]; simp), membersOf_eq]
  · rfl
  · exact hdist.nodup_names

theorem inheritedField_dictionary (hk : r.descriptor.kind = .dictionary) (w : World (Store σ)) :
    r.inheritedField w = (none, w) := by
  unfold inheritedField
  rw [hk]
  rfl

/-- A dictionary inherits nothing that would be left out. -/
theorem Holds.toMap_dictionary (h : r.Holds origin log) (hw : w.store.Sound)
    (hr : w.store.HasFields r.descriptor.id origin) (hdist : origin.Distinct)
    (hk : r.descriptor.kind = .dictionary) :
    ((r.toMap).run w).1 = .ok (members (r.filled origin.all)) := by
  rw [h.toMap hw hr hdist, inheritedField_dictionary hk]
  exact congrArg (fun fields => Except.ok (members (r.filled fields)))
    (List.filter_eq_self.mpr fun _ _ => rfl)

/-- Writing the members of some values, each of which its type decodes, writes all of them. -/
theorem Holds.setMembers [Outside σ] {es : WriteLog} (h : r.Holds origin log)
    (hw : w.store.Sound) (hr : w.store.HasFields r.descriptor.id origin) (hdist : origin.Distinct)
    (hes : ∀ e ∈ es, (∃ i, origin.fieldAt? i = some e.1) ∧
      ∀ w : World (Store σ), ((e.1.type.decode (.wire e.2.toWire)).run w).1 = .ok e.2) :
    ∃ r', (r.setMembers (members es) w).1 = (r', none) ∧ r'.Holds origin (log ++ es) ∧
      r'.descriptor = r.descriptor := by
  induction es generalizing r log w with
  | nil => exact ⟨r, rfl, by rwa [List.append_nil], rfl⟩
  | cons e rest ih =>
    obtain ⟨f, v⟩ := e
    obtain ⟨⟨i, hi⟩, hv⟩ := hes (f, v) List.mem_cons_self
    have hset := h.setByName_granted hw hr hdist hi hv
    have hrest := r.setByName_keeps Store.reading_rests f.name (.wire v.toWire) w
    obtain ⟨r', hr', hholds, hdesc⟩ := ih (h.store hi v) (hrest hw).1 (hr.rests hw hrest)
      fun e he => hes e (List.mem_cons_of_mem _ he)
    refine ⟨r', ?_, ?_, hdesc⟩
    · show (r.setMembers ((f.name, v.toWire) :: members rest) w).1 = _
      rw [setMembers_cons]
      dsimp only
      rw [hset]
      exact hr'
    · rw [List.append_assoc] at hholds
      exact hholds

/-! ### The copy -/

/-- What is not null is written last under its field, what is null is not written at all. -/
theorem last?_filled (r : Record) (hf : origin.fieldAt? i = some f) :
    ((r.filled origin.all).last? f).getD .null = r.valueOf f := by
  have hsame (e : Field × Value) (he : e ∈ r.filled origin.all) (hs : e.1.same f = true) :
      e.1 = f := by
    obtain ⟨j, hj⟩ := Fields.mem_all.mp (mem_filled.mp he).1
    exact Fields.eq_of_same hj hf hs
  unfold WriteLog.last?
  by_cases hv : r.valueOf f = .null
  · have hnone : (r.filled origin.all).reverse.find? (·.1.same f) = none := by
      rw [List.find?_eq_none]
      intro e he hs
      rw [List.mem_reverse] at he
      obtain ⟨-, hvalue, hne⟩ := mem_filled.mp he
      rw [hsame e he hs, hv] at hvalue
      exact hne hvalue
    rw [hnone, hv]
    rfl
  · have hmem : (f, r.valueOf f) ∈ r.filled origin.all :=
      mem_filled.mpr ⟨Fields.mem_all.mpr ⟨i, hf⟩, rfl, hv⟩
    rw [find?_eq_some_of_unique (List.mem_reverse.mpr hmem) (Field.same_self f) ?_]
    · rfl
    · intro e he hs
      rw [List.mem_reverse] at he
      have hef := hsame e he hs
      exact Prod.ext hef ((mem_filled.mp he).2.1.trans (congrArg r.valueOf hef))

/-- A record that was written the values of another has the same values. -/
theorem Holds.values_eq {copy : Record} (h : r.Holds origin log)
    (hc : copy.Holds origin (r.filled origin.all)) : copy.values = r.values := by
  refine List.ext_getElem? fun i => ?_
  have hsize : r.values.length = origin.length := h.size
  have hsize' : copy.values.length = origin.length := hc.size
  by_cases hi : i < origin.length
  · obtain ⟨f, hf⟩ := Fields.fieldAt?_of_lt hi
    rw [hc.value i f hf, r.last?_filled hf, h.value i f hf, h.valueOf hf]
  · rw [List.getElem?_eq_none (by omega), List.getElem?_eq_none (by omega)]

/-- What is not null was written last to its field. -/
theorem Holds.written_filled (h : r.Holds origin log) {e : Field × Value}
    (he : e ∈ r.filled origin.all) :
    (∃ i, origin.fieldAt? i = some e.1) ∧ e ∈ log ∧ e.2 ∈ r.values := by
  obtain ⟨f, v⟩ := e
  obtain ⟨hf, hv, hne⟩ := mem_filled.mp he
  dsimp only at hf hv hne ⊢
  obtain ⟨i, hi⟩ := Fields.mem_all.mp hf
  have hlast : log.last? f = some v := by
    have hvalue := hv.trans (h.valueOf hi)
    cases hl : log.last? f with
    | none =>
      rw [hl] at hvalue
      exact absurd hvalue hne
    | some v' =>
      rw [hl] at hvalue
      exact congrArg some hvalue.symm
  refine ⟨⟨i, hi⟩, ?_, ?_⟩
  · obtain ⟨e, hlog, hs, hv⟩ := WriteLog.mem_of_last? hlast
    obtain ⟨j, hj⟩ := h.written e hlog
    have he : e = (f, v) := Prod.ext (Fields.eq_of_same hj hi hs) hv
    rw [← he]
    exact hlog
  · have hvalue := h.value i f hi
    rw [hlast] at hvalue
    exact List.mem_of_getElem? hvalue

/-- What has been written comes back from the wire if its fields are plain and its spans whole. -/
theorem Holds.decode_filled [Outside σ] (h : r.Holds origin log)
    (hgiven : ∀ e ∈ log, e.1.type.Gives e.2) (hplain : ∀ spec ∈ origin.specs, spec.isPlain = true)
    (hwhole : ∀ v ∈ r.values, v.isWhole = true) {e : Field × Value}
    (he : e ∈ r.filled origin.all) (w : World (Store σ)) :
    ((e.1.type.decode (.wire e.2.toWire)).run w).1 = .ok e.2 := by
  obtain ⟨⟨i, hi⟩, hlog, hvalue⟩ := h.written_filled he
  obtain ⟨-, -, -, hspec⟩ := Fields.fieldAt?_spec hi
  have htype := Field.isPlain_type (hplain _ (List.mem_of_getElem? hspec))
  have hagain := (hgiven e hlog).again htype (hwhole _ hvalue) LookupType.typedId w
  exact congrArg Prod.fst hagain

/-- From its generic form, a fresh record of the dataset takes over all that a record holds. The
generic form is taken in the world `w`, and `w'` is the world when the copy has been made. -/
structure Survives [Outside σ] (r : Record) (d : Dataset) (w w' : World (Store σ)) (m : WireMap)
    (copy : Record) : Prop where
  toMap : ((r.toMap).run w).1 = .ok m
  fromMap : (of d.descriptor d.fields).setMembers m ((r.toMap).run w).2 = ((copy, none), w')
  values : copy.values = r.values
  get : ∀ i f, d.fields.fieldAt? i = some f →
    ∃ v, ((r.get f).run w').1 = .ok v ∧ ((copy.get f).run w').1 = .ok v
  toMap_copy : ((copy.toMap).run w').1 = .ok m

theorem Holds.survives [Outside σ] {d : StoredDataset}
    (hd : w.store.stored? r.descriptor.id = some d) (hdesc : d.dataset.descriptor = r.descriptor)
    (hk : r.descriptor.kind = .dictionary) (hw : w.store.Sound)
    (h : r.Holds d.dataset.fields log) (hdist : d.dataset.fields.Distinct)
    (hgiven : ∀ e ∈ log, e.1.type.Gives e.2)
    (hplain : ∀ spec ∈ d.dataset.fields.specs, spec.isPlain = true)
    (hwhole : ∀ v ∈ r.values, v.isWhole = true) :
    ∃ m copy w', r.Survives d.dataset w w' m copy := by
  have hr : w.store.HasFields r.descriptor.id d.dataset.fields := ⟨d, hd, .refl _⟩
  have hmap := h.toMap_dictionary hw hr hdist hk
  have hrest := r.toMap_keeps Store.deriving_rests w
  generalize hw₁ : ((r.toMap).run w).2 = w₁ at hrest
  have hr₁ : w₁.store.HasFields r.descriptor.id d.dataset.fields := hr.rests hw hrest
  -- the fresh record has no writes, so what it is written now is all that it holds
  have hfresh : (of d.dataset.descriptor d.dataset.fields).Holds d.dataset.fields [] :=
    holds_of (by rw [hdesc, h.owner])
  rw [hdesc] at hfresh
  obtain ⟨copy, hcopy, hholds, hcopydesc⟩ := hfresh.setMembers (hrest hw).1 hr₁ hdist
    fun e he => ⟨(h.written_filled he).1, h.decode_filled hgiven hplain hwhole he⟩
  have hrest₂ := (of r.descriptor d.dataset.fields).setMembers_keeps Store.reading_rests
    (members (r.filled d.dataset.fields.all)) w₁
  generalize hw₂ : ((of r.descriptor d.dataset.fields).setMembers
    (members (r.filled d.dataset.fields.all)) w₁).2 = w₂ at hrest₂
  have hsound₂ := (hrest₂ (hrest hw).1).1
  have hr₂ : w₂.store.HasFields r.descriptor.id d.dataset.fields :=
    hr₁.rests (hrest hw).1 hrest₂
  have hvalues : copy.values = r.values := h.values_eq hholds
  have hvalueOf : copy.valueOf = r.valueOf := by
    unfold Record.valueOf
    rw [hvalues]
  have hr₂' : w₂.store.HasFields copy.descriptor.id d.dataset.fields := by
    rw [hcopydesc]
    exact hr₂
  refine ⟨_, copy, w₂, hmap, ?_, hvalues, ?_, ?_⟩
  · rw [hdesc, hw₁]
    exact Prod.ext hcopy hw₂
  · intro i f hf
    refine ⟨r.valueOf f, h.get_granted hsound₂ hr₂ hf, ?_⟩
    rw [← hvalueOf]
    exact hholds.get_granted hsound₂ hr₂' hf
  · rw [hholds.toMap_dictionary hsound₂ hr₂' hdist (by rw [hcopydesc]; exact hk)]
    unfold filled
    rw [hvalueOf]

end Record

variable {σ : Type}

/-! ### The main statement -/

/-- Whatever has happened in a scene, a record of a dictionary whose fields have distinct names and
plain kinds, with or without constraints, survives its generic form, as long as its spans are whole
seconds. -/
theorem record_survives_generic_form [Outside σ] (outside : σ) (calls : List (SceneCall σ)) (k : Nat)
    (l : LoggedRecord) (hk : (after Scene.step calls (Scene.start outside)).records[k]? = some l)
    (hdict : l.record.descriptor.kind = .dictionary) (hdist : l.origin.Distinct)
    (hplain : ∀ spec ∈ l.origin.specs, spec.isPlain = true)
    (hwhole : ∀ v ∈ l.record.values, v.isWhole = true) :
    ∃ d m copy w', (after Scene.step calls (Scene.start outside)).world.store.dataset?
        l.record.descriptor.id = some d ∧
      l.record.Survives d (after Scene.step calls (Scene.start outside)).world w' m copy := by
  have hsound := Scene.sound_after outside calls
  generalize after Scene.step calls (Scene.start outside) = s at hk hsound
  have hl : l.Sound s.world.store := hsound.records l (List.mem_of_getElem? hk)
  -- the field list of a dictionary is never rebuilt
  obtain ⟨d, hd, hdesc, ha | ⟨hext, -⟩⟩ := hl.follows
  · have hspecs : ∀ spec ∈ d.dataset.fields.specs, spec.isPlain = true := by
      rw [ha.specs]
      exact hplain
    obtain ⟨m, copy, w', hsurvives⟩ := (hl.holds.agrees ha).survives hd hdesc hdict hsound.store
      (ha.distinct hdist) hl.given hspecs hwhole
    exact ⟨d.dataset, m, copy, w', congrArg (Option.map StoredDataset.dataset) hd, hsurvives⟩
  · rw [hdict] at hext
    cases hext

namespace Jobs

/-- A number beyond the signed words, a bounded span, a list of bounded texts and a field that stays
null. -/
def spec : DatasetSpec :=
  { name := "jobs", path := "jobs", primary := "id"
    fields := [.ofKind "id" (.unsigned .uint64), .ofType "timeout" (.duration { min := some 1 }),
      .listOf "tags" (.text .string { maxChars := 8 }), .ofKind "done" .bool] }

def nowhere : Directory := {}

/-- Fields are written by name, out of order and with a failure in between. -/
def history : List (SceneCall Directory) :=
  [.addDictionary 0 spec .nowhere, .newRecord 0,
    .setByName 0 "TAGS" (.value (.list [.text "", .null])),
    .setByName 0 "timeout" (.value (.int 90)),
    .setByName 0 "timeout" (.value (.int 0)),
    .setByName 0 "id" (.value (.uint 18446744073709551615))]

theorem job_there :
    ((after Scene.step history (Scene.start nowhere)).records[0]?).isSome = true := by
  decide +kernel

end Jobs

open Jobs in
theorem job_survives_generic_form :
    ∃ l, (after Scene.step history (Scene.start nowhere)).records[0]? = some l ∧
      l.record.touched = ["tags", "timeout", "id"] ∧
      ∃ d m copy w', (after Scene.step history (Scene.start nowhere)).world.store.dataset?
          l.record.descriptor.id = some d ∧
        l.record.Survives d (after Scene.step history (Scene.start nowhere)).world w' m copy := by
  have hl := (Option.some_get job_there).symm
  have hdict : (Option.get _ job_there).record.descriptor.kind = .dictionary := by decide +kernel
  have hdist : (Option.get _ job_there).origin.Distinct := by decide +kernel
  have hplain : ∀ spec ∈ (Option.get _ job_there).origin.specs, spec.isPlain = true := by
    decide +kernel
  have hwhole : ∀ v ∈ (Option.get _ job_there).record.values, v.isWhole = true := by
    decide +kernel
  have htouched : (Option.get _ job_there).record.touched = ["tags", "timeout", "id"] := by
    decide +kernel
  exact ⟨_, hl, htouched,
    record_survives_generic_form nowhere history 0 _ hl hdict hdist hplain hwhole⟩

end TenantSchema
