import TenantSchema.Proofs.Scenes

/-!
# What becomes of the datasets of a scene

There are few ways to make a dataset or to change one. What these keep is kept by all that can
happen in a scene.
-/

namespace TenantSchema

variable {σ : Type} [Outside σ]

/-- Making datasets and finding bases late keeps `R` too. -/
structure Store.HistorySteps (R : Store σ → Store σ → Prop) : Prop extends DatasetSteps R where
  dictionary : ∀ domain spec via, Keeps R (addDictionary domain spec via)
  new : ∀ domain spec via, Keeps R (newExtension domain spec via)
  extend : ∀ domain base spec, Keeps R (extendDictionary domain base spec)
  late : ∀ id, Keeps R (baseDictionary id)

/-- All that can happen in a scene keeps `V`: what reading and decoding does, and the calls that make
datasets, find bases late or leave the datasets alone. -/
structure World.HistorySteps (V : World (Store σ) → World (Store σ) → Prop) : Prop
    extends Reading V where
  same : ∀ {α : Type} (m : StateM (Store σ) α), (∀ s, (m s).2.datasets = s.datasets) →
    Keeps V (onStore m)
  dictionary : ∀ domain spec via, Keeps V (onStore (Store.addDictionary domain spec via))
  create : ∀ domain spec via base, Keeps V (onStore (Store.createExtension? domain spec via base))
  call : ∀ c, Keeps V (onStore (Store.call c))
  late : ∀ id, Keeps V (onStore (Store.baseDictionary id))

namespace Store.HistorySteps

variable {R : Store σ → Store σ → Prop} [IsPreorder (Store σ) R] (h : HistorySteps R)

include h

theorem create (domain : Int) (spec : DatasetSpec) (via : Via) (base : Option Descriptor) :
    Keeps R (createExtension? domain spec via base) := by
  unfold createExtension?
  split
  · exact Keeps.pure _
  · cases base with
    | none => exact Keeps.bind (h.new domain spec via) fun _ => Keeps.pure _
    | some base => exact Keeps.bind (h.extend domain base spec) fun _ => Keeps.pure _

theorem world : World.HistorySteps (World.Over R) where
  toReading := h.toDatasetSteps.reading.world
  same _ hsame := fun w => h.same (hsame w.store)
  dictionary domain spec via := World.onStore_keeps (h.dictionary domain spec via)
  create domain spec via base := World.onStore_keeps (h.create domain spec via base)
  call c := World.onStore_keeps (h.lookupSteps.call h.register h.new h.unregister c)
  late id := World.onStore_keeps (h.late id)

end Store.HistorySteps

namespace Scene

section Worlds

variable {V : World (Store σ) → World (Store σ) → Prop} [IsPreorder (World (Store σ)) V]

omit [Outside σ] in
theorem read_keeps (k : Nat) {α : Type} {m : Record → RecordStep σ α} (hm : ∀ r, KeepsE V (m r))
    (s : Scene σ) : V s.world (s.read k m).world := by
  unfold read
  cases s.records[k]? with
  | none => exact Std.Refl.refl (r := V) s.world
  | some l => exact hm l.record s.world

variable (h : World.HistorySteps V)

include h

theorem write_keeps (k : Nat) {find : Record → RecordStep σ Field}
    (hfind : ∀ r, KeepsE V (find r)) (source : Source) (s : Scene σ) :
    V s.world (s.write k find source).world := by
  unfold write
  cases s.records[k]? with
  | none => exact Std.Refl.refl (r := V) s.world
  | some l =>
    have hset (f : Field) := l.record.set_keeps h.toReading f source
    exact KeepsE.bind (hfind l.record) hset s.world

/-- One step of a scene. -/
theorem next_keeps (call : SceneCall σ) (s : Scene σ) : V s.world (s.next call).world := by
  have hread := h.toReading
  have hderive := h.toDeriving
  have hrefl := Std.Refl.refl (r := V) s.world
  cases call with
  | addDictionary domain spec via => exact h.dictionary domain spec via s.world
  | createExtension domain spec via base => exact h.create domain spec via base s.world
  | addRegistry config => exact h.same (Store.addRegistry config) (fun _ => rfl) s.world
  | registry call => exact h.call call s.world
  | baseDictionary id => exact h.late id s.world
  | validate d => exact hread.validate h.late d s.world
  | decode t source => exact hread.decode t source s.world
  | listFields id => exact hderive.onFields id Fields.lookups_read.toList s.world
  | forget goneDomains goneLinks =>
    exact h.same (modify fun store => { store with goneDomains, goneLinks }) (fun _ => rfl) s.world
  | change f =>
    exact h.same (modify fun store => { store with outside := f store.outside }) (fun _ => rfl)
      s.world
  | takeField id i => exact hderive.onFields id (Fields.lookups_read.get i) s.world
  | takeFieldByName id name => exact hderive.onFields id (Fields.lookups_read.byName name) s.world
  | newRecord id =>
    show V s.world (s.newRecord id).world
    unfold newRecord
    cases s.world.store.dataset? id with
    | none => exact hrefl
    | some d => exact hrefl
  | set k i source =>
    rw [next_set]
    cases s.fields[i]? with
    | none => exact hrefl
    | some f => exact write_keeps h k (fun _ => KeepsE.pure f) source s
  | setByName k name source =>
    exact write_keeps h k (fun r => r.field_keeps hderive name) source s
  | fromMap k m =>
    show V s.world (s.writeMembers k m).world
    unfold writeMembers
    cases s.records[k]? with
    | none => exact hrefl
    | some l => exact l.record.setMembers_keeps hread m s.world
  | get k i =>
    rw [next_get]
    cases s.fields[i]? with
    | none => exact hrefl
    | some f => exact read_keeps k (fun r => r.get_keeps hread f) s
  | getByName k name => exact read_keeps k (fun r => r.getByName_keeps hread name) s
  | forEach k more => exact read_keeps k (fun r => r.forEach_keeps hderive more) s
  | toMap k => exact read_keeps k (fun r => r.toMap_keeps hderive) s

theorem after_keeps_world (calls : List (SceneCall σ)) (s : Scene σ) :
    V s.world (after step calls s).world := by
  induction calls generalizing s with
  | nil => exact Std.Refl.refl (r := V) s.world
  | cons call rest ih =>
    exact IsTrans.trans (r := V) _ _ _ (next_keeps h call s) (ih (s.next call))

end Worlds

theorem after_over {R : Store σ → Store σ → Prop} [IsPreorder (Store σ) R]
    (h : Store.HistorySteps R) (calls : List (SceneCall σ)) (s : Scene σ) :
    World.Over R s.world (after step calls s).world :=
  after_keeps_world h.world calls s

end Scene

end TenantSchema
