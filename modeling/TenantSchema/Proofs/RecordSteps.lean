import Mathlib.Tactic.SplitIfs
import TenantSchema.Proofs.WorldSound
import TenantSchema.Proofs.WriteLog

/-!
# Records in a world

What the accessors of a record answer in a world: by the version of the field list, by the version
of the record and, where a field is handed in, by the version of that field.
-/

namespace TenantSchema

section Fields

variable {σ : Type} {s s' : Store σ} {w : World (Store σ)} {id : Nat} {d : StoredDataset}

/-- A field that the store has handed out, now or at an earlier version of its dataset. -/
def Store.Issued (s : Store σ) (f : Field) : Prop :=
  ∃ d, s.stored? f.owner = some d ∧ d.dataset.fields.CameFrom f

/-- The record's field list is the one that it was made with, or a later one of an extension. -/
def Store.Follows (s : Store σ) (origin : Fields) (r : Record) : Prop :=
  ∃ d, s.stored? r.descriptor.id = some d ∧ d.dataset.descriptor = r.descriptor ∧
    (origin.Agrees d.dataset.fields ∨
      r.descriptor.kind = .extension ∧ r.version < d.dataset.fields.version)

theorem Store.Issued.advances {f : Field} (h : s.Issued f) (hs : s.Sound) (ha : s.Advances s') :
    s'.Issued f := by
  obtain ⟨d, hd, hf⟩ := h
  obtain ⟨d', hd', hq⟩ := (ha hs).2 f.owner d hd
  exact ⟨d', hd', hq.recalls f hf⟩

theorem Store.Follows.advances {origin : Fields} {r : Record} (h : s.Follows origin r)
    (hv : r.version = origin.version) (hs : s.Sound) (ha : s.Advances s') :
    s'.Follows origin r := by
  obtain ⟨d, hd, hdesc, hf⟩ := h
  obtain ⟨d', hd', hq⟩ := (ha hs).2 r.descriptor.id d hd
  refine ⟨d', hd', hq.descriptor.trans hdesc, ?_⟩
  rcases hf with hf | ⟨hk, hlt⟩
  · rcases hq with hrest | ⟨hp, -, hlt', -⟩
    · exact .inl (hf.trans hrest.fields)
    · rw [hf.version, ← hv] at hlt'
      rw [← hdesc]
      exact .inr ⟨(hs _ d hd).kind hp, hlt'⟩
  · rcases hq with hrest | ⟨-, -, hlt', -⟩
    · rw [← hrest.fields.version] at hlt
      exact .inr ⟨hk, hlt⟩
    · exact .inr ⟨hk, UInt32.lt_trans hlt hlt'⟩

/-- The answer of a step is the one that the field list gives. -/
theorem World.onFields_answer {α : Type} [Inhabited α] (hd : w.store.stored? id = some d)
    (step : StateM Fields α) :
    (World.onFields id step w).1 = (step d.dataset.fields).1 := by
  show (Store.onFields id step w.store).1 = _
  rw [Store.onFields_eq, hd]

/-- What a list keeps when it answers is issued. -/
theorem World.issued_onFields {α : Type} [Inhabited α] (hw : w.store.Sound)
    (hd : w.store.stored? id = some d) {step : StateM Fields α} (hstep : Keeps Fields.Reads step)
    {f : Field} (hf : (step d.dataset.fields).2.Kept f) :
    (World.onFields id step w).2.store.Issued f := by
  have hs := hw id d hd
  obtain ⟨hc, ha⟩ := (hstep d.dataset.fields).derives hs.coherent
  have hfrom := (hc.cameFrom hf).1
  have hid : f.owner = id := hfrom.owner.trans (ha.owner.trans hs.owned)
  refine ⟨d.setFields (step d.dataset.fields).2, ?_, ?_⟩
  · show Store.stored? f.owner (Store.onFields id step w.store).2 = _
    rw [Store.onFields_eq, hd]
    dsimp only
    rw [Store.stored?_set hd, if_pos hid.symm]
  · rw [StoredDataset.dataset_setFields]
    exact hfrom

/-- A field that was issued belongs to a dataset as long as its version is in force. -/
theorem World.owns_iff {f : Field} (hw : w.store.Sound) (hd : w.store.stored? id = some d)
    (hf : w.store.Issued f) :
    (World.onFields id (Fields.owns f) w).1 = true ↔
      f.owner = id ∧ f.version = d.dataset.fields.version := by
  have hs := hw _ d hd
  rw [World.onFields_answer hd]
  have hsame (ho : f.owner = id) : d.dataset.fields.CameFrom f := by
    obtain ⟨d', hd', hf⟩ := hf
    rw [ho, hd] at hd'
    cases hd'
    exact hf
  constructor
  · intro howns
    have ho : f.owner = id := (hs.coherent.owner_of_owns howns).trans hs.owned
    exact ⟨ho, ((hsame ho).owns_iff hs.coherent).mp howns⟩
  · rintro ⟨ho, hv⟩
    exact ((hsame ho).owns_iff hs.coherent).mpr hv

end Fields

namespace Record

variable {σ : Type} {w : World (Store σ)} {r : Record} {d : StoredDataset} {f : Field}

/-! ### Versions -/

theorem isCurrent_iff (hd : w.store.stored? r.descriptor.id = some d) :
    r.isCurrent w = true ↔ d.dataset.fields.version = r.version := by
  unfold isCurrent Store.fields? Store.dataset?
  rw [hd]
  simp

/-- A current record is on the field list that it was made with. -/
theorem agrees_of_isCurrent {origin : Fields} (hr : w.store.Follows origin r)
    (hcur : r.isCurrent w = true) :
    ∃ d, w.store.stored? r.descriptor.id = some d ∧ origin.Agrees d.dataset.fields := by
  obtain ⟨d, hd, -, ha | ⟨-, hlt⟩⟩ := hr
  · exact ⟨d, hd, ha⟩
  · rw [(isCurrent_iff hd).mp hcur] at hlt
    exact absurd rfl (UInt32.ne_of_lt hlt)

theorem checkVersion_run (r : Record) (w : World (Store σ)) :
    (r.checkVersion).run w = (if r.isCurrent w then .ok () else .error r.staleError, w) := by
  unfold checkVersion
  rw [run_get_bind]
  cases r.isCurrent w <;> rfl

/-- What the slot check makes of a field, given whether it is one of the dataset. -/
def slotAnswer (r : Record) (f : Field) (owned : Bool) : Except RecordError Nat :=
  if !owned then .error (.foreignField f.name)
  else if f.version ≠ r.version then .error r.staleError
  else if f.num = 0 ∨ r.size < f.num then .error (.foreignField f.name)
  else .ok (f.num - 1)

theorem slotAnswer_ok {owned : Bool} {i : Nat} (h : r.slotAnswer f owned = .ok i) :
    owned = true ∧ f.version = r.version ∧ i = f.num - 1 := by
  unfold slotAnswer at h
  split_ifs at h with ho hv hn
  · cases h
    exact ⟨by simpa using ho, not_not.mp hv, rfl⟩

theorem field_run (r : Record) (name : String) (w : World (Store σ)) :
    (r.field name).run w =
      if r.isCurrent w then
        let found := World.onFields r.descriptor.id (Fields.byName name) w
        (match found.1 with
          | some f => .ok f
          | none => .error (.noSuchField r.descriptor.path name), found.2)
      else (.error r.staleError, w) := by
  unfold field
  rw [run_bind, checkVersion_run]
  cases r.isCurrent w with
  | false => rfl
  | true =>
    simp only [if_true, run_lift_bind]
    cases (World.onFields r.descriptor.id (Fields.byName name) w).1 <;> rfl

/-! ### Worlds after a reading -/

section Reading

variable {V : World (Store σ) → World (Store σ) → Prop} [IsPreorder (World (Store σ)) V]

theorem checkVersion_keeps (r : Record) :
    KeepsE V (r.checkVersion : RecordStep σ Unit) := by
  intro w
  rw [checkVersion_run]
  exact Std.Refl.refl (r := V) w

variable (h : World.Deriving V)

include h

theorem field_keeps (r : Record) (name : String) :
    KeepsE V (r.field name : RecordStep σ Field) := by
  intro w
  rw [field_run]
  split
  · exact h.onFields _ (Fields.lookups_read.byName name) w
  · exact Std.Refl.refl (r := V) w

theorem entriesOf_keeps (r : Record) (names : List String) :
    Keeps V
      (r.entriesOf names : StateM (World (Store σ)) (List (Field × Value))) := by
  induction names with
  | nil => exact Keeps.pure _
  | cons name rest ih =>
    refine Keeps.bind (h.onFields _ (Fields.lookups_read.byName name)) fun _ => ?_
    exact Keeps.bind ih fun _ => Keeps.pure _

theorem forEach_keeps (r : Record) (more : List (Field × Value) → Bool) :
    KeepsE V (r.forEach more : RecordStep σ (List (Field × Value))) := by
  refine KeepsE.bind (KeepsE.bind r.checkVersion_keeps fun _ => ?_) fun _ => KeepsE.pure _
  refine KeepsE.bind (KeepsE.lift (r.entriesOf_keeps h r.touched)) fun entries => ?_
  dsimp only
  split
  · exact KeepsE.bind (KeepsE.throw _) fun _ => KeepsE.pure _
  · exact KeepsE.pure _

theorem inheritedField_keeps (r : Record) : Keeps V (r.inheritedField (σ := σ)) := by
  unfold inheritedField
  cases r.descriptor.kind with
  | dictionary => exact Keeps.pure _
  | extension => exact h.onFields _ Fields.lookups_read.primaryField

theorem toMap_keeps (r : Record) :
    KeepsE V (r.toMap : RecordStep σ WireMap) := by
  refine KeepsE.bind r.checkVersion_keeps fun _ => ?_
  refine KeepsE.bind (KeepsE.lift (r.inheritedField_keeps h)) fun inherited => ?_
  refine KeepsE.bind (KeepsE.lift (h.onFields _ Fields.lookups_read.toList)) fun fields => ?_
  dsimp only
  split
  · exact KeepsE.bind (KeepsE.throw _) fun _ => KeepsE.pure _
  · exact KeepsE.pure _

end Reading

/-! ### Visits -/

/-- A name is answered with a field that has it. -/
theorem field_ok {name : String} (hw : w.store.Sound)
    (hd : w.store.stored? r.descriptor.id = some d) (hf : ((r.field name).run w).1 = .ok f) :
    Fields.Named name f ∧ ((r.field name).run w).2.store.Issued f := by
  have hc := (hw _ d hd).coherent
  rw [field_run] at hf ⊢
  cases hcur : r.isCurrent w with
  | false =>
    rw [hcur] at hf
    cases hf
  | true =>
    rw [hcur] at hf
    simp only [if_true, World.onFields_answer hd] at hf ⊢
    cases hb : (Fields.byName name d.dataset.fields).1 with
    | none =>
      rw [hb] at hf
      cases hf
    | some g =>
      rw [hb] at hf
      cases hf
      exact ⟨(hc.byName_some hb).2, World.issued_onFields hw hd (Fields.lookups_read.byName name)
        (hc.sized.byName_kept hb)⟩

theorem entriesOf_cons (r : Record) (name : String) (rest : List String) (w : World (Store σ)) :
    r.entriesOf (name :: rest) w =
      let found := World.onFields r.descriptor.id (Fields.byName name) w
      let others := r.entriesOf rest found.2
      ((found.1.bind fun f => (r.values[f.num - 1]?).map fun v => (f, v)).toList ++ others.1,
        others.2) := rfl

theorem entries_run (r : Record) (w : World (Store σ)) :
    (r.entries).run w =
      if r.isCurrent w then
        let found := r.entriesOf r.touched w
        (if found.1.any (·.1.version ≠ r.version) then .error r.staleError else .ok found.1,
          found.2)
      else (.error r.staleError, w) := by
  unfold entries
  rw [run_bind, checkVersion_run]
  cases r.isCurrent w with
  | false => rfl
  | true =>
    simp only [if_true, run_lift_bind]
    split_ifs <;> rfl

theorem forEach_run (r : Record) (more : List (Field × Value) → Bool) (w : World (Store σ)) :
    (r.forEach more).run w =
      (((r.entries).run w).1.map (visited more []), ((r.entries).run w).2) := by
  unfold forEach
  rw [run_bind]
  cases ((r.entries).run w).1 <;> rfl

section Visits

variable {origin : Fields} {log : WriteLog}

/-- The names of the last writes lead back to the writes themselves. -/
theorem Holds.entriesOf (h : r.Holds origin log) (hdist : origin.Distinct) {es : WriteLog}
    (hes : ∀ e ∈ es, e ∈ log.latest) (hw : w.store.Sound)
    (hd : w.store.stored? r.descriptor.id = some d) (ha : origin.Agrees d.dataset.fields) :
    (r.entriesOf (es.map (·.1.name)) w).1 = es := by
  induction es generalizing w d with
  | nil => rfl
  | cons e rest ih =>
    have hlatest : e ∈ log.latest := hes e List.mem_cons_self
    obtain ⟨i, hi⟩ := h.written e (WriteLog.mem_of_mem_latest hlatest)
    have hi' : d.dataset.fields.fieldAt? i = some e.1 := by rw [ha.fieldAt?, hi]
    have hfound : (World.onFields r.descriptor.id (Fields.byName e.1.name) w).1 = some e.1 := by
      rw [World.onFields_answer hd]
      exact (hw _ d hd).coherent.byName_name (ha.distinct hdist) hi'
    have hvalue : r.values[e.1.num - 1]? = some e.2 := by
      obtain ⟨-, -, hnum, -⟩ := Fields.fieldAt?_spec hi
      rw [hnum]
      show r.values[i]? = _
      rw [h.value i e.1 hi, WriteLog.last?_of_mem_latest hlatest]
      rfl
    obtain ⟨hw', hmoved⟩ :=
      Store.deriving_rests.onFields r.descriptor.id (Fields.lookups_read.byName e.1.name) w hw
    obtain ⟨d', hd', hrest⟩ := hmoved _ d hd
    rw [List.map_cons, entriesOf_cons]
    dsimp only
    rw [hfound, Option.bind_some, hvalue,
      ih (fun e' he' => hes e' (List.mem_cons_of_mem _ he')) hw' hd' (ha.trans hrest.fields)]
    rfl

/-- The written fields with their values, unless the record is stale. -/
theorem Holds.entries (h : r.Holds origin log) (hdist : origin.Distinct) (hw : w.store.Sound)
    (hr : w.store.Follows origin r) :
    ((r.entries).run w).1 = if r.isCurrent w then .ok log.latest else .error r.staleError := by
  rw [entries_run]
  cases hc : r.isCurrent w with
  | false => rfl
  | true =>
    obtain ⟨d, hd, ha⟩ := agrees_of_isCurrent hr hc
    have hes := h.entriesOf hdist (fun e (he : e ∈ log.latest) => he) hw hd ha
    rw [← h.touched hdist] at hes
    have hall : log.latest.any (·.1.version ≠ r.version) = false := by
      rw [List.any_eq_false]
      intro e he
      obtain ⟨i, hi⟩ := h.written e (WriteLog.mem_of_mem_latest he)
      obtain ⟨-, hv, -, -⟩ := Fields.fieldAt?_spec hi
      simp [hv, h.version]
    simp only [if_true, hes, hall]
    rfl

end Visits

variable [Outside σ]

theorem slot_run (r : Record) (f : Field) (w : World (Store σ)) :
    (r.slot f).run w =
      (r.slotAnswer f (World.onFields r.descriptor.id (Fields.owns f) w).1,
        (World.onFields r.descriptor.id (Fields.owns f) w).2) := by
  unfold slot slotAnswer
  rw [run_lift_bind]
  generalize World.onFields r.descriptor.id (Fields.owns f) w = p
  obtain ⟨owned, w'⟩ := p
  dsimp only
  split_ifs <;> rfl

/-! ### Writes -/

/-- What a write of a source would store, if it is not refused. -/
def normalized (r : Record) (f : Field) (source : Source) : RecordStep σ Value := do
  let _ ← r.slot f
  ExceptT.adapt (.type f.name) (f.type.decode source)

theorem get_run (r : Record) (f : Field) (w : World (Store σ)) :
    (r.get f).run w =
      (((r.slot f).run w).1.map fun i => (r.values[i]?).getD .null, ((r.slot f).run w).2) := by
  unfold get
  rw [run_bind]
  cases ((r.slot f).run w).1 <;> rfl

theorem set_run (r : Record) (f : Field) (source : Source) (w : World (Store σ)) :
    (r.set f source).run w =
      (((r.normalized f source).run w).1.map (r.store (f.num - 1) f.name),
        ((r.normalized f source).run w).2) := by
  unfold set normalized
  rw [run_bind, run_bind]
  cases hs : ((r.slot f).run w).1 with
  | error e => rfl
  | ok i =>
    have hi : i = f.num - 1 := by
      rw [slot_run] at hs
      exact (slotAnswer_ok hs).2.2
    rw [hi]
    dsimp only
    rw [run_bind]
    cases ((ExceptT.adapt (RecordError.type f.name) (f.type.decode source)).run
      ((r.slot f).run w).2).1 <;> rfl

theorem normalized_ok {source : Source} {v : Value}
    (h : ((r.normalized f source).run w).1 = .ok v) :
    ((r.slot f).run w).1 = .ok (f.num - 1) := by
  unfold normalized at h
  rw [run_bind] at h
  cases hs : ((r.slot f).run w).1 with
  | error e =>
    rw [hs] at h
    cases h
  | ok i =>
    rw [slot_run] at hs
    rw [(slotAnswer_ok hs).2.2]

/-- What a write stores has been decoded by the type of its field. -/
theorem normalized_given {source : Source} {v : Value}
    (h : ((r.normalized f source).run w).1 = .ok v) : f.type.Gives v := by
  unfold normalized at h
  rw [run_bind] at h
  cases hs : ((r.slot f).run w).1 with
  | error e =>
    rw [hs] at h
    cases h
  | ok i =>
    rw [hs] at h
    dsimp only at h
    generalize ((r.slot f).run w).2 = w' at h
    refine ⟨_, LookupType.typedId, source.input, w', ?_⟩
    change (((f.type.decode source).run w').1).mapError (RecordError.type f.name) = .ok v at h
    show ((f.type.decode source).run w').1 = .ok v
    cases hd : ((f.type.decode source).run w').1 with
    | error e =>
      rw [hd] at h
      cases h
    | ok v' =>
      rw [hd] at h
      cases h
      rfl

/-! ### Worlds after a write -/

section Writing

variable {V : World (Store σ) → World (Store σ) → Prop} [IsPreorder (World (Store σ)) V]
  (h : World.Reading V)

include h

omit h [IsPreorder (World (Store σ)) V] in
theorem slot_keeps (h : World.Deriving V) (r : Record) (f : Field) :
    KeepsE V (r.slot f : RecordStep σ Nat) := by
  intro w
  rw [slot_run]
  exact h.onFields _ (Fields.lookups_read.owns f) w

theorem normalized_keeps (r : Record) (f : Field) (source : Source) :
    KeepsE V (r.normalized f source : RecordStep σ Value) :=
  KeepsE.bind (r.slot_keeps h.toDeriving f) fun _ => KeepsE.adapt _ (h.decode f.type source)

theorem set_keeps (r : Record) (f : Field) (source : Source) :
    KeepsE V (r.set f source : RecordStep σ Record) := by
  intro w
  rw [set_run]
  exact r.normalized_keeps h f source w

theorem setByName_keeps (r : Record) (name : String) (source : Source) :
    KeepsE V (r.setByName name source : RecordStep σ Record) :=
  KeepsE.bind (r.field_keeps h.toDeriving name) fun f => r.set_keeps h f source

theorem get_keeps (r : Record) (f : Field) :
    KeepsE V (r.get f : RecordStep σ Value) :=
  KeepsE.bind (r.slot_keeps h.toDeriving f) fun _ => KeepsE.pure _

theorem getByName_keeps (r : Record) (name : String) :
    KeepsE V (r.getByName name : RecordStep σ Value) :=
  KeepsE.bind (r.field_keeps h.toDeriving name) fun f => r.get_keeps h f

theorem setMembers_keeps (r : Record) (m : WireMap) :
    Keeps V (r.setMembers m : StateM (World (Store σ)) _) := by
  induction m generalizing r with
  | nil => exact Keeps.pure _
  | cons e rest ih =>
    refine Keeps.bind (r.setByName_keeps h e.1 (.wire e.2)) fun answer => ?_
    cases answer with
    | ok r' => exact ih r'
    | error e => exact Keeps.pure _

end Writing

/-! ### Answers -/

section Answers

variable {origin : Fields} {log : WriteLog} (hw : w.store.Sound) (h : r.Holds origin log)
  (hr : w.store.Follows origin r)

include hw hr

/-- A slot is granted to a field of the list that the record was made with. -/
theorem slot_ok (hf : w.store.Issued f) {i : Nat} (hi : ((r.slot f).run w).1 = .ok i) :
    i = f.num - 1 ∧ origin.fieldAt? i = some f := by
  rw [slot_run] at hi
  obtain ⟨howned, hversion, rfl⟩ := slotAnswer_ok hi
  obtain ⟨d, hd, -, hor⟩ := hr
  obtain ⟨ho, hv⟩ := (World.owns_iff hw hd hf).mp howned
  obtain ⟨d', hd', hfrom⟩ := hf
  rw [ho, hd] at hd'
  cases hd'
  refine ⟨rfl, ?_⟩
  rcases hor with hag | ⟨-, hlt⟩
  · rw [← hag.fieldAt?]
    exact (hw _ d hd).coherent.fresh? (hfrom.fresh hv)
  -- at a later version of the list the field is not of the record's version
  · rw [← hversion, hv] at hlt
    exact absurd rfl (UInt32.ne_of_lt hlt)

include h in
theorem get_ok (hf : w.store.Issued f) {v : Value} (hv : ((r.get f).run w).1 = .ok v) :
    v = (log.last? f).getD .null := by
  rw [get_run] at hv
  cases hs : ((r.slot f).run w).1 with
  | error e =>
    rw [hs] at hv
    cases hv
  | ok i =>
    rw [hs] at hv
    cases hv
    show (r.values[i]?).getD .null = _
    rw [h.value i f (slot_ok hw hr hf hs).2]
    rfl

include h in
theorem getByName_ok {name : String} {v : Value} (hv : ((r.getByName name).run w).1 = .ok v) :
    ∃ f, ((r.field name).run w).1 = .ok f ∧ Fields.Named name f ∧ v = (log.last? f).getD .null := by
  unfold getByName at hv
  rw [run_bind] at hv
  cases hf : ((r.field name).run w).1 with
  | error e =>
    rw [hf] at hv
    cases hv
  | ok f =>
    rw [hf] at hv
    obtain ⟨d, hd, -⟩ := id hr
    obtain ⟨hn, hissued⟩ := field_ok hw hd hf
    have hrest := r.field_keeps Store.deriving_rests name w
    have hr' := hr.advances h.version hw hrest.advances
    exact ⟨f, rfl, hn, get_ok (hrest hw).1 h hr' hissued hv⟩

end Answers

end Record

end TenantSchema
