import TenantSchema.Proofs.Scenes

/-!
# Sound scenes

The invariant of all that can happen in a scene: the datasets of its world are sound, every field
has been issued by the world, and every record holds what its log says.
-/

namespace TenantSchema

/-- The record holds what its log says. -/
structure LoggedRecord.Sound {σ : Type} (s : Store σ) (l : LoggedRecord) : Prop where
  holds : l.record.Holds l.origin l.log
  follows : s.Follows l.origin l.record
  given : ∀ e ∈ l.log, e.1.type.Gives e.2

structure Scene.Sound {σ : Type} (s : Scene σ) : Prop where
  store : s.world.store.Sound
  fields : ∀ f ∈ s.fields, s.world.store.Issued f
  records : ∀ l ∈ s.records, l.Sound s.world.store

namespace LoggedRecord

variable {σ : Type} {l : LoggedRecord} {s s' : Store σ}

theorem Sound.advances (h : l.Sound s) (hs : s.Sound) (ha : s.Advances s') : l.Sound s' :=
  ⟨h.holds, h.follows.advances h.holds.version hs ha, h.given⟩

variable [Outside σ] {w : World (Store σ)}

/-- A granted write is logged and stored, a refused one is neither. -/
theorem Sound.write (h : l.Sound w.store) (hw : w.store.Sound) {find : RecordStep σ Field}
    (hrest : w.Rests (find.run w).2)
    (hfind : ∀ f, (find.run w).1 = .ok f → (find.run w).2.store.Issued f) (source : Source) :
    let done := (do l.record.set (← find) source : RecordStep σ Record).run w
    let record := match done.1 with
      | .ok r => r
      | .error _ => l.record
    w.Rests done.2 ∧
      ({ l with record, log := l.log ++ l.record.written find source w } : LoggedRecord).Sound
        done.2.store := by
  dsimp only
  unfold Record.written
  rw [run_bind, run_bind]
  cases hf : (find.run w).1 with
  | error e =>
    dsimp only
    rw [List.append_nil]
    exact ⟨hrest, h.advances hw hrest.advances⟩
  | ok f =>
    dsimp only
    generalize (find.run w).2 = w' at hrest hfind ⊢
    have hw' : w'.store.Sound := (hrest hw).1
    have h' : l.Sound w'.store := h.advances hw hrest.advances
    -- neither finding the field nor decoding rebuilds the list that the record follows
    have hrest' := l.record.normalized_keeps Store.reading_rests f source w'
    have hdone : w.Rests ((l.record.normalized f source).run w').2 :=
      IsTrans.trans (r := World.Rests) _ _ _ hrest hrest'
    have hl := h'.advances hw' hrest'.advances
    rw [Record.set_run, run_bind]
    cases hv : ((l.record.normalized f source).run w').1 with
    | error e =>
      dsimp only [Except.map]
      rw [List.append_nil]
      exact ⟨hdone, hl⟩
    | ok v =>
      have hslot := Record.slot_ok hw' h'.follows (hfind f hf) (Record.normalized_ok hv)
      refine ⟨hdone, h.holds.store hslot.2 v, hl.follows, fun e he => ?_⟩
      rcases List.mem_append.mp he with he | he
      · exact h.given e he
      · rw [List.mem_singleton.mp he]
        exact Record.normalized_given hv

/-- A name finds a field of the record's dataset. -/
theorem Sound.setByName (h : l.Sound w.store) (hw : w.store.Sound) (name : String)
    (source : Source) :
    let done := (l.record.setByName name source).run w
    let record := match done.1 with
      | .ok r => r
      | .error _ => l.record
    w.Rests done.2 ∧
      ({ l with record, log := l.log ++ l.record.written (l.record.field name) source w } :
        LoggedRecord).Sound done.2.store := by
  obtain ⟨d, hd, -⟩ := h.follows
  exact h.write hw (l.record.field_keeps Store.deriving_rests name w)
    (fun f hf => (Record.field_ok hw hd hf).2) source

theorem Sound.setMembers (h : l.Sound w.store) (hw : w.store.Sound) (m : WireMap) :
    let done := l.record.setMembers m w
    ({ l with record := done.1.1, log := l.log ++ l.record.membersWritten m w } :
      LoggedRecord).Sound done.2.store := by
  induction m generalizing l w with
  | nil =>
    show LoggedRecord.Sound w.store { l with record := l.record, log := l.log ++ [] }
    rw [List.append_nil]
    exact h
  | cons e rest ih =>
    obtain ⟨name, wire⟩ := e
    obtain ⟨hrest, hl⟩ := h.setByName hw name (.wire wire)
    dsimp only at hrest hl ⊢
    rw [Record.setMembers_cons, Record.membersWritten]
    dsimp only
    cases hd : ((l.record.setByName name (.wire wire)).run w).1 with
    | error e =>
      rw [hd] at hl
      dsimp only
      rw [List.append_nil]
      exact hl
    | ok r =>
      rw [hd] at hl
      dsimp only
      rw [← List.append_assoc]
      exact ih hl (hrest hw).1

end LoggedRecord

namespace Scene

variable {σ : Type} {s : Scene σ}

theorem start_sound (outside : σ) : (start outside).Sound where
  store id d hd := by cases hd
  fields := by simp [start]
  records := by simp [start]

/-- A sound scene stays sound, whatever becomes of its datasets. -/
def Advances (s s' : Scene σ) : Prop := s.Sound → s.world.Advances s'.world ∧ s'.Sound

instance : IsPreorder (Scene σ) Advances where
  refl s h := ⟨Std.Refl.refl (r := World.Advances) s.world, h⟩
  trans _ _ _ h h' hs := by
    obtain ⟨hw, hs'⟩ := h hs
    obtain ⟨hw', hs''⟩ := h' hs'
    exact ⟨IsTrans.trans (r := World.Advances) _ _ _ hw hw', hs''⟩

/-- Whatever happens in the world does no harm to fields and records. -/
theorem advances_world {w : World (Store σ)} (hw : s.world.Advances w) :
    s.Advances { s with world := w } := by
  intro h
  exact ⟨hw, (hw h.store).1, fun f hf => (h.fields f hf).advances h.store hw,
    fun l hl => (h.records l hl).advances h.store hw⟩

theorem onWorld_advances {α : Type} {m : StateM (World (Store σ)) α}
    (hm : Keeps World.Advances m) (s : Scene σ) : s.Advances (s.onWorld m) :=
  advances_world (hm s.world)

theorem onWorld_rests {α : Type} {m : StateM (World (Store σ)) α} (hm : Keeps World.Rests m)
    (s : Scene σ) : s.Advances (s.onWorld m) :=
  advances_world (hm s.world).advances

theorem onStore_advances {α : Type} {m : StateM (Store σ) α} (hm : Keeps Store.Advances m)
    (s : Scene σ) : s.Advances (s.onStore m) :=
  onWorld_advances (World.onStore_keeps hm) s

theorem take_advances (id : Nat) {step : StateM Fields (Option Field)}
    (hstep : Keeps Fields.Reads step)
    (hkept : ∀ fs : Fields, fs.Sized → ∀ f, (step fs).1 = some f → (step fs).2.Kept f)
    (s : Scene σ) : s.Advances (s.take id step) := by
  intro h
  have hrest := Store.deriving_rests.onFields id hstep s.world
  obtain ⟨hw, hm⟩ := advances_world hrest.advances h
  refine ⟨hw, hm.store, fun f hf => ?_, hm.records⟩
  rcases List.mem_append.mp hf with hf | hf
  · exact hm.fields f hf
  · cases hd : s.world.store.stored? id with
    | none =>
      have hnone : (World.onFields id step s.world).1 = none := by
        show (Store.onFields id step s.world.store).1 = _
        rw [Store.onFields_eq, hd]
        rfl
      rw [hnone] at hf
      cases hf
    | some d =>
      rw [World.onFields_answer hd, Option.mem_toList] at hf
      exact World.issued_onFields h.store hd hstep (hkept _ (h.store id d hd).coherent.sized f hf)

theorem newRecord_advances (id : Nat) (s : Scene σ) : s.Advances (s.newRecord id) := by
  intro h
  unfold newRecord
  cases hd : s.world.store.dataset? id with
  | none => exact ⟨Std.Refl.refl (r := World.Advances) _, h⟩
  | some d =>
    obtain ⟨stored, hst, rfl⟩ := Option.map_eq_some_iff.mp hd
    refine ⟨Std.Refl.refl (r := World.Advances) _, h.store, h.fields, fun l hl => ?_⟩
    rcases List.mem_append.mp hl with hl | hl
    · exact h.records l hl
    · rw [List.mem_singleton.mp hl]
      have hsound := h.store id stored hst
      refine ⟨Record.holds_of (hsound.numbered.trans hsound.owned.symm),
        ⟨stored, ?_, rfl, .inl (.refl _)⟩, by simp⟩
      show s.world.store.stored? stored.dataset.descriptor.id = _
      rw [hsound.numbered]
      exact hst

/-- One record is replaced by what a call makes of it. -/
theorem advances_set {w : World (Store σ)} (hw : s.world.Rests w) (k : Nat) {l : LoggedRecord}
    (hl : s.Sound → l.Sound w.store) :
    s.Advances { s with world := w, records := s.records.set k l } := by
  intro h
  obtain ⟨ha, hm⟩ := advances_world hw.advances h
  refine ⟨ha, hm.store, hm.fields, fun l' hl' => ?_⟩
  rcases List.mem_or_eq_of_mem_set hl' with hl' | rfl
  · exact hm.records l' hl'
  · exact hl h

theorem read_advances (k : Nat) {α : Type} {m : Record → RecordStep σ α}
    (hm : ∀ r, KeepsE World.Rests (m r)) (s : Scene σ) : s.Advances (s.read k m) := by
  unfold read
  cases s.records[k]? with
  | none => exact Std.Refl.refl s
  | some l => exact onWorld_rests (hm l.record) s

variable [Outside σ]

theorem write_advances (k : Nat) (find : Record → RecordStep σ Field)
    (hfind : ∀ l ∈ s.records, s.Sound → s.world.Rests ((find l.record).run s.world).2 ∧
      ∀ f, ((find l.record).run s.world).1 = .ok f →
        ((find l.record).run s.world).2.store.Issued f) (source : Source) :
    s.Advances (s.write k find source) := by
  intro h
  unfold write
  cases hk : s.records[k]? with
  | none => exact ⟨Std.Refl.refl (r := World.Advances) _, h⟩
  | some l =>
    have hl := List.mem_of_getElem? hk
    obtain ⟨hrest, hissued⟩ := hfind l hl h
    obtain ⟨hdone, hsound⟩ := (h.records l hl).write h.store hrest hissued source
    exact advances_set hdone k (fun _ => hsound) h

/-- One step of a scene. -/
theorem next_advances (call : SceneCall σ) (s : Scene σ) : s.Advances (s.next call) := by
  cases call with
  | addDictionary domain spec via =>
    exact onStore_advances (fun s => (Store.addDictionary_rests domain spec via s).advances) s
  | createExtension domain spec via base =>
    have hcreate := (Store.steps_rest (σ := σ)).createExtension? domain spec via base
    exact onStore_advances (fun s => (hcreate s).advances) s
  | addRegistry config => exact onStore_advances (fun _ => Store.moves_of_datasets_eq rfl) s
  | registry call => exact onStore_advances (Store.call_advances call) s
  | baseDictionary id => exact onStore_advances (Store.baseDictionary_advances id) s
  | validate d =>
    have hbase (id : Nat) := World.onStore_keeps (Store.baseDictionary_advances (σ := σ) id)
    exact onWorld_advances (Store.reading_advances.validate hbase d) s
  | decode t source => exact onWorld_rests (Store.reading_rests.decode t source) s
  | listFields id => exact onWorld_rests (Store.deriving_rests.onFields id Fields.lookups_read.toList) s
  | forget domains links => exact onStore_advances (fun _ => Store.moves_of_datasets_eq rfl) s
  | change f => exact onStore_advances (fun _ => Store.moves_of_datasets_eq rfl) s
  | takeField id i =>
    exact take_advances id (Fields.lookups_read.get i) (fun _ hs _ hf => hs.get_kept hf) s
  | takeFieldByName id name =>
    exact take_advances id (Fields.lookups_read.byName name) (fun _ hs _ hf => hs.byName_kept hf) s
  | newRecord id => exact newRecord_advances id s
  | set k i source =>
    rw [next_set]
    cases hi : s.fields[i]? with
    | none => exact Std.Refl.refl s
    | some f =>
      refine write_advances k _ (fun l _ h => ⟨Std.Refl.refl (r := World.Rests) _, ?_⟩) source
      rintro g ⟨⟩
      exact h.fields f (List.mem_of_getElem? hi)
  | setByName k name source =>
    refine write_advances k (·.field name) (fun l hl h => ?_) source
    refine ⟨l.record.field_keeps Store.deriving_rests name s.world, fun f hf => ?_⟩
    obtain ⟨d, hd, -⟩ := (h.records l hl).follows
    exact (Record.field_ok h.store hd hf).2
  | fromMap k m =>
    show s.Advances (s.writeMembers k m)
    unfold writeMembers
    cases hk : s.records[k]? with
    | none => exact Std.Refl.refl s
    | some l =>
      refine advances_set (l.record.setMembers_keeps Store.reading_rests m s.world) k fun h => ?_
      exact (h.records l (List.mem_of_getElem? hk)).setMembers h.store m
  | get k i =>
    rw [next_get]
    cases s.fields[i]? with
    | none => exact Std.Refl.refl s
    | some f => exact read_advances k (fun r => r.get_keeps Store.reading_rests f) s
  | getByName k name => exact read_advances k (fun r => r.getByName_keeps Store.reading_rests name) s
  | forEach k more => exact read_advances k (fun r => r.forEach_keeps Store.deriving_rests more) s
  | toMap k => exact read_advances k (fun r => r.toMap_keeps Store.deriving_rests) s

theorem after_advances (calls : List (SceneCall σ)) (s : Scene σ) :
    s.Advances (after step calls s) :=
  after_keeps (fun call s => next_advances call s) calls s

/-- Every scene that can come about is sound. -/
theorem sound_after (outside : σ) (calls : List (SceneCall σ)) :
    (after step calls (start outside)).Sound :=
  (after_advances calls _ (start_sound outside)).2

end Scene

end TenantSchema
