import TenantSchema.Proofs.SlotIntegrity

/-!
# Stale records

A record made on an extension without its base is stale as soon as the base is found. It then
refuses every call and stays as it is. By name it always says that it is stale. A field that is
handed in is first looked up in the rebuilt list, so one that was taken before is called foreign
instead.
-/

namespace TenantSchema

namespace Record

variable {σ : Type} {w : World (Store σ)} {r : Record} {d : StoredDataset} {f : Field}

/-! ### Refusals -/

theorem field_stale (h : r.isCurrent w = false) (name : String) :
    (r.field name).run w = (.error r.staleError, w) := by
  rw [field_run, h]
  rfl

theorem forEach_stale (h : r.isCurrent w = false) (more : List (Field × Value) → Bool) :
    ((r.forEach more).run w).1 = .error r.staleError := by
  rw [forEach_run, entries_run, h]
  rfl

theorem toMap_stale (h : r.isCurrent w = false) : ((r.toMap).run w).1 = .error r.staleError := by
  unfold toMap
  rw [run_bind, checkVersion_run, h]
  rfl

variable [Outside σ]

theorem getByName_stale (h : r.isCurrent w = false) (name : String) :
    ((r.getByName name).run w).1 = .error r.staleError := by
  unfold getByName
  rw [run_bind, field_stale h]

theorem setByName_stale (h : r.isCurrent w = false) (name : String) (source : Source) :
    (r.setByName name source).run w = (.error r.staleError, w) := by
  unfold setByName
  rw [run_bind, field_stale h]

/-- What a stale record says about a field depends on the version of the field alone. -/
theorem slot_stale (hw : w.store.Sound) (hd : w.store.stored? r.descriptor.id = some d)
    (hv : d.dataset.fields.version ≠ r.version) (hf : w.store.Issued f) :
    ((r.slot f).run w).1 =
      .error (if f.owner = r.descriptor.id ∧ f.version = d.dataset.fields.version
        then r.staleError else .foreignField f.name) := by
  have howns := World.owns_iff hw hd hf
  rw [slot_run]
  unfold slotAnswer
  by_cases h : f.owner = r.descriptor.id ∧ f.version = d.dataset.fields.version
  · have hfv : f.version ≠ r.version := h.2 ▸ hv
    simp [howns.mpr h, h, hv]
  · have hno : (World.onFields r.descriptor.id (Fields.owns f) w).1 = false := by
      rw [← Bool.not_eq_true]
      exact mt howns.mp h
    simp [hno, h]

theorem get_stale {e : RecordError} (h : ((r.slot f).run w).1 = .error e) :
    ((r.get f).run w).1 = .error e := by
  rw [get_run, h]
  rfl

theorem set_stale {e : RecordError} (h : ((r.slot f).run w).1 = .error e) (source : Source) :
    ((r.set f source).run w).1 = .error e := by
  unfold set
  rw [run_bind, h]

theorem setMembers_stale (h : r.isCurrent w = false) (m : WireMap) :
    (r.setMembers m w).1.1 = r ∧ r.membersWritten m w = [] := by
  cases m with
  | nil => exact ⟨rfl, rfl⟩
  | cons e rest =>
    obtain ⟨name, wire⟩ := e
    have hset := setByName_stale h name (.wire wire)
    rw [setMembers_cons, membersWritten, written_refused (congrArg Prod.fst hset)]
    dsimp only
    rw [hset]
    exact ⟨rfl, rfl⟩

end Record

/-! ### The main statement -/

/-- The record refuses every call, and no call changes it. The field list is now at `version`. -/
structure LoggedRecord.Stale {σ : Type} [Outside σ] (s : Scene σ) (k : Nat) (version : UInt32)
    (l : LoggedRecord) : Prop where
  getByName : ∀ name, ((l.record.getByName name).run s.world).1 = .error l.record.staleError
  setByName : ∀ name source,
    ((l.record.setByName name source).run s.world).1 = .error l.record.staleError
  forEach : ∀ more, ((l.record.forEach more).run s.world).1 = .error l.record.staleError
  toMap : ((l.record.toMap).run s.world).1 = .error l.record.staleError
  get : ∀ f ∈ s.fields, f.owner = l.record.descriptor.id → ((l.record.get f).run s.world).1 =
    .error (if f.version = version then l.record.staleError else .foreignField f.name)
  set : ∀ f ∈ s.fields, f.owner = l.record.descriptor.id → ∀ source,
    ((l.record.set f source).run s.world).1 =
      .error (if f.version = version then l.record.staleError else .foreignField f.name)
  next : ∀ call, (s.next call).records[k]? = some l

section Scene

variable {σ : Type} [Outside σ] {s : Scene σ} {k : Nat} {l : LoggedRecord}

/-- A stale record stays as it is, whatever happens. -/
theorem Scene.next_unchanged (hk : s.records[k]? = some l)
    (hcur : l.record.isCurrent s.world = false)
    (hset : ∀ f ∈ s.fields, ∀ source, ∃ e, ((l.record.set f source).run s.world).1 = .error e)
    (call : SceneCall σ) :
    (s.next call).records[k]? = some l := by
  have hlt : k < s.records.length := (List.getElem?_eq_some_iff.mp hk).1
  obtain h | ⟨f, hf, source, h⟩ | ⟨name, source, h⟩ | ⟨m, h⟩ := next_record call hk
  · exact h
  · obtain ⟨e, he⟩ := hset f hf source
    rw [h]
    exact write_refused hk he
  · rw [h]
    exact write_refused hk (congrArg Prod.fst (Record.setByName_stale hcur name source))
  · obtain ⟨hrecord, hlog⟩ := Record.setMembers_stale hcur m
    rw [h]
    unfold writeMembers
    rw [hk]
    dsimp only
    rw [hrecord, hlog, List.append_nil, List.getElem?_set_self hlt]

theorem Scene.Sound.stale (h : s.Sound) (hk : s.records[k]? = some l) {d : StoredDataset}
    (hd : s.world.store.stored? l.record.descriptor.id = some d)
    (hv : l.record.version < d.dataset.fields.version) :
    l.Stale s k d.dataset.fields.version := by
  have hne : d.dataset.fields.version ≠ l.record.version := (UInt32.ne_of_lt hv).symm
  have hcur : l.record.isCurrent s.world = false := by
    rw [← Bool.not_eq_true, Record.isCurrent_iff hd]
    exact hne
  have hslot (f : Field) (hf : f ∈ s.fields) :=
    Record.slot_stale h.store hd hne (h.fields f hf)
  have hown (f : Field) (hf : f ∈ s.fields) (ho : f.owner = l.record.descriptor.id) :
      ((l.record.slot f).run s.world).1 = .error (if f.version = d.dataset.fields.version
        then l.record.staleError else .foreignField f.name) := by
    rw [hslot f hf]
    simp [ho]
  refine ⟨?_, ?_, ?_, ?_, ?_, ?_, ?_⟩
  · exact Record.getByName_stale hcur
  · exact fun name source => congrArg Prod.fst (Record.setByName_stale hcur name source)
  · exact Record.forEach_stale hcur
  · exact Record.toMap_stale hcur
  · exact fun f hf ho => Record.get_stale (hown f hf ho)
  · exact fun f hf ho source => Record.set_stale (hown f hf ho) source
  · exact next_unchanged hk hcur fun f hf source => ⟨_, Record.set_stale (hslot f hf) source⟩

end Scene

/-- A record made on an extension without its base is stale once the base is found. -/
theorem late_base_makes_stale {σ : Type} [Outside σ] (outside : σ)
    (before later : List (SceneCall σ)) (id : Nat) (x y : Extension)
    (hx : (after Scene.step before (Scene.start outside)).world.store.extension? id = some x)
    (hpending : x.base = none)
    (hy : (after Scene.step (before ++ .newRecord id :: later)
      (Scene.start outside)).world.store.extension? id = some y)
    (hfound : y.base ≠ none) :
    let k := (after Scene.step before (Scene.start outside)).records.length
    let s := after Scene.step (before ++ .newRecord id :: later) (Scene.start outside)
    ∃ l, s.records[k]? = some l ∧ l.record.descriptor.id = id ∧
      l.Stale s k y.dataset.fields.version := by
  rw [after_append, after_cons] at hy ⊢
  have hsound := Scene.sound_after outside before
  generalize after Scene.step before (Scene.start outside) = s₁ at hx hy hsound ⊢
  change (after Scene.step later (s₁.newRecord id)).world.store.extension? id = some y at hy
  intro k s
  have hx' := Store.extension?_eq_some.mp hx
  have hdata : s₁.world.store.dataset? id = some x.dataset := by
    unfold Store.dataset?
    rw [hx']
    rfl
  have hnew := Scene.newRecord_new hdata
  have hk : (s₁.newRecord id).records[k]? = some
      { record := .of x.dataset.descriptor x.dataset.fields, origin := x.dataset.fields } := by
    rw [hnew]
    exact List.getElem?_concat_length
  obtain ⟨l, hl, hc⟩ := Scene.after_continues later hk
  obtain ⟨-, hsound₁⟩ := Scene.newRecord_advances id s₁ hsound
  obtain ⟨hworld, hsound₂⟩ := Scene.after_advances later (s₁.newRecord id) hsound₁
  have hholds := (hsound₂.records l (List.mem_of_getElem? hl)).holds
  have hid : l.record.descriptor.id = id := by
    rw [hholds.owner, hc.origin]
    exact (hsound.store id _ hx').owned
  refine ⟨l, hl, hid, ?_⟩
  -- making the record leaves the world alone, so the base is found after that
  have hsame : (s₁.newRecord id).world = s₁.world := by rw [hnew]
  rw [hsame] at hworld
  have hlt := Store.Advances.version_lt hworld hsound.store hx hpending hy hfound
  refine hsound₂.stale hl (d := .extension y) ?_ ?_
  · rw [hid]
    exact Store.extension?_eq_some.mp hy
  · rw [hholds.version, hc.origin]
    exact hlt

namespace LateBase

theorem extension_there : ((after Scene.step unresolved
    (Scene.start emptyTable)).world.store.extension? 1).isSome = true := by
  decide +kernel

theorem extension_still_there : ((after Scene.step (unresolved ++ .newRecord 1 :: resolved)
    (Scene.start emptyTable)).world.store.extension? 1).isSome = true := by
  decide +kernel

end LateBase

open LateBase in
theorem late_contacts_make_stale :
    ∃ x y : Extension,
      (after Scene.step unresolved (Scene.start emptyTable)).world.store.extension? 1 = some x ∧
        x.base = none ∧
        (after Scene.step (unresolved ++ .newRecord 1 :: resolved)
          (Scene.start emptyTable)).world.store.extension? 1 = some y ∧ y.base ≠ none ∧
        ∃ l : LoggedRecord, l.record.descriptor.id = 1 ∧ l.Stale (after Scene.step
          (unresolved ++ .newRecord 1 :: resolved) (Scene.start emptyTable)) 0
          y.dataset.fields.version := by
  have hx := (Option.some_get extension_there).symm
  have hy := (Option.some_get extension_still_there).symm
  have hpending : (Option.get _ extension_there).base = none := by decide +kernel
  have hfound : (Option.get _ extension_still_there).base ≠ none := by decide +kernel
  obtain ⟨l, -, hid, hstale⟩ :=
    late_base_makes_stale emptyTable unresolved resolved 1 _ _ hx hpending hy hfound
  exact ⟨_, _, hx, hpending, hy, hfound, l, hid, hstale⟩

open LateBase in
/-- The field taken before the base was found: the record, though stale, calls it foreign. -/
theorem outdated_field_is_foreign :
    ∃ l ∈ (after Scene.step (unresolved ++ .newRecord 1 :: resolved)
        (Scene.start emptyTable)).records,
      ∃ f ∈ (after Scene.step (unresolved ++ .newRecord 1 :: resolved)
          (Scene.start emptyTable)).fields,
        f.owner = l.record.descriptor.id ∧
          ((l.record.get f).run (after Scene.step (unresolved ++ .newRecord 1 :: resolved)
            (Scene.start emptyTable)).world).1.map (fun _ => ()) =
              .error (.foreignField "vip") := by
  decide +kernel

end TenantSchema
