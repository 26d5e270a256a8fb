import TenantSchema.Proofs.SceneSound
import TenantSchema.Store.Directory

/-!
# Records and their logs

What a record shows through any of its accessors is what was written to it last, in every scene that
can come about. Field lists that are rebuilt under a record do not matter: a record never confuses
the slots of two versions.
-/

namespace TenantSchema

variable {σ : Type}

/-- A generic form that fails has the effects of the members before the failing one. -/
theorem Record.setMembers_error [Outside σ] {r : Record} {m : WireMap} {w : World (Store σ)}
    {e : RecordError} (he : (r.setMembers m w).1.2 = some e) :
    ∃ before name wire rest, m = before ++ (name, wire) :: rest ∧
      (r.setMembers before w).1 = ((r.setMembers m w).1.1, none) ∧
      (((r.setMembers m w).1.1.setByName name (.wire wire)).run (r.setMembers before w).2).1 =
        .error e := by
  induction m generalizing r w with
  | nil => cases he
  | cons member rest ih =>
    obtain ⟨name, wire⟩ := member
    rw [setMembers_cons] at he ⊢
    dsimp only at he ⊢
    cases hd : ((r.setByName name (.wire wire)).run w).1 with
    | error e' =>
      rw [hd] at he
      cases he
      exact ⟨[], name, wire, rest, rfl, rfl, hd⟩
    | ok r' =>
      rw [hd] at he
      obtain ⟨before, name', wire', rest', rfl, hb, hf⟩ := ih he
      refine ⟨(name, wire) :: before, name', wire', rest', rfl, ?_⟩
      rw [setMembers_cons]
      dsimp only
      rw [hd]
      exact ⟨hb, hf⟩

/-! ### The main statement -/

/-- In its scene, the record shows what its log says, and nothing but a granted write changes it. -/
structure LoggedRecord.Intact [Outside σ] (s : Scene σ) (k : Nat) (l : LoggedRecord) : Prop where
  get : ∀ f ∈ s.fields, ∀ v, ((l.record.get f).run s.world).1 = .ok v →
    v = (l.log.last? f).getD .null
  getByName : ∀ name v, ((l.record.getByName name).run s.world).1 = .ok v →
    ∃ f, ((l.record.field name).run s.world).1 = .ok f ∧ Fields.Named name f ∧
      v = (l.log.last? f).getD .null
  touched : l.record.touched = l.log.latest.map (·.1.name) ∧ l.record.touched.Nodup
  /-- Unless it is stale, the record hands out the last writes. -/
  forEach : ∀ more, ((l.record.forEach more).run s.world).1 =
    if l.record.isCurrent s.world then .ok (visited more [] l.log.latest)
    else .error l.record.staleError
  /-- Whatever happens next, the record has as many slots as before. -/
  size : ∀ call, ∃ l', (s.next call).records[k]? = some l' ∧ l.Continues l' ∧
    l'.record.size = l.record.size
  set_ok : ∀ i f source r, s.fields[i]? = some f →
    ((l.record.set f source).run s.world).1 = .ok r →
    ∃ v, ((l.record.normalized f source).run s.world).1 = .ok v ∧
      (s.next (.set k i source)).records[k]? =
        some { l with record := r, log := l.log ++ [(f, v)] }
  setByName_ok : ∀ name source r, ((l.record.setByName name source).run s.world).1 = .ok r →
    ∃ f v, ((l.record.field name).run s.world).1 = .ok f ∧
      ((l.record.normalized f source).run ((l.record.field name).run s.world).2).1 = .ok v ∧
      (s.next (.setByName k name source)).records[k]? =
        some { l with record := r, log := l.log ++ [(f, v)] }
  set_error : ∀ i f source e, s.fields[i]? = some f →
    ((l.record.set f source).run s.world).1 = .error e →
    (s.next (.set k i source)).records[k]? = some l
  setByName_error : ∀ name source e, ((l.record.setByName name source).run s.world).1 = .error e →
    (s.next (.setByName k name source)).records[k]? = some l
  fromMap_error : ∀ m e, (l.record.setMembers m s.world).1.2 = some e →
    ∃ before name wire rest r, m = before ++ (name, wire) :: rest ∧
      (l.record.setMembers before s.world).1 = (r, none) ∧
      ((r.setByName name (.wire wire)).run (l.record.setMembers before s.world).2).1 = .error e ∧
      (s.next (.fromMap k m)).records[k]?.map (·.record) = some r

/-- Whatever has happened in a scene, every record whose fields had distinct names when it was made
shows exactly the last writes to its fields, in the order of these writes. -/
theorem records_show_last_writes [Outside σ] (outside : σ) (calls : List (SceneCall σ)) (k : Nat)
    (l : LoggedRecord) (hk : (after Scene.step calls (Scene.start outside)).records[k]? = some l)
    (hd : l.origin.Distinct) : l.Intact (after Scene.step calls (Scene.start outside)) k := by
  have hsound := Scene.sound_after outside calls
  generalize after Scene.step calls (Scene.start outside) = s at hk hsound
  have hl : l.Sound s.world.store := hsound.records l (List.mem_of_getElem? hk)
  refine ⟨?_, ?_, ⟨hl.holds.touched hd, hl.holds.nodup_touched hd⟩, ?_, ?_, ?_, ?_, ?_, ?_, ?_⟩
  · intro f hf v hv
    exact Record.get_ok hsound.store hl.holds hl.follows (hsound.fields f hf) hv
  · intro name v hv
    exact Record.getByName_ok hsound.store hl.holds hl.follows hv
  · intro more
    rw [Record.forEach_run, hl.holds.entries hd hsound.store hl.follows]
    cases l.record.isCurrent s.world <;> rfl
  · intro call
    obtain ⟨l', hl', hc⟩ := Scene.next_continues call hk
    obtain ⟨-, hnext⟩ := Scene.next_advances call s hsound
    have hholds := (hnext.records l' (List.mem_of_getElem? hl')).holds
    refine ⟨l', hl', hc, ?_⟩
    rw [hholds.size, hl.holds.size, hc.origin]
  · intro i f source r hi hr
    obtain ⟨g, v, hg, hv, hnext⟩ := Scene.write_granted (fun _ => pure f) hk hr
    cases hg
    rw [Scene.next_set, hi]
    exact ⟨v, hv, hnext⟩
  · intro name source r hr
    exact Scene.write_granted (·.field name) hk hr
  · intro i f source e hi he
    rw [Scene.next_set, hi]
    exact Scene.write_refused hk he
  · intro name source e he
    exact Scene.write_refused hk he
  · intro m e he
    obtain ⟨before, name, wire, rest, hm, hb, hf⟩ := Record.setMembers_error he
    refine ⟨before, name, wire, rest, _, hm, hb, hf, ?_⟩
    have hlt : k < s.records.length := (List.getElem?_eq_some_iff.mp hk).1
    show (s.writeMembers k m).records[k]?.map (·.record) = _
    unfold Scene.writeMembers
    rw [hk]
    dsimp only
    rw [List.getElem?_set_self hlt]
    rfl

/-! ### A base that is found late -/

namespace LateBase

/-- A table that does not hold the dictionary yet. -/
def emptyTable : Directory := { tables := [{}] }

def contacts : Descriptor :=
  { id := 0, kind := .dictionary, domain := 0, name := "contacts", path := "contacts"
    extendable := true }

/-- An extension misses its base, and its only field is taken. -/
def unresolved : List (SceneCall Directory) :=
  [.addDictionary 0
      { name := "contacts", path := "contacts", fields := [.ofKind "id" .bool], primary := "id"
        extendable := true } .nowhere,
    .createExtension 7 { name := "contacts", fields := [.ofKind "vip" .bool] } (.table 0) none,
    .takeField 1 0]

/-- A record of the extension is written to before its base is found. -/
def resolved : List (SceneCall Directory) :=
  [.set 0 0 (.value (.bool true)), .setByName 0 "VIP" (.value (.bool false)),
    .change fun o => { o with tables := o.tables.map (·.put "contacts" contacts) },
    .baseDictionary 1]

theorem record_there : ((after Scene.step (unresolved ++ .newRecord 1 :: resolved)
    (Scene.start emptyTable)).records[0]?).isSome = true := by
  decide +kernel

end LateBase

open LateBase in
theorem record_on_late_base_shows_last_writes :
    ∃ l, (after Scene.step (unresolved ++ .newRecord 1 :: resolved)
        (Scene.start emptyTable)).records[0]? = some l ∧ l.origin.Distinct ∧
      l.record.touched = ["vip"] ∧ l.Intact (after Scene.step
        (unresolved ++ .newRecord 1 :: resolved) (Scene.start emptyTable)) 0 := by
  have hl := (Option.some_get record_there).symm
  have hd : (Option.get _ record_there).origin.Distinct := by decide +kernel
  refine ⟨_, hl, hd, ?_, records_show_last_writes emptyTable _ 0 _ hl hd⟩
  decide +kernel

end TenantSchema
