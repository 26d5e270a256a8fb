import TenantSchema.Proofs.KnownTargets
import TenantSchema.Proofs.SceneSteps
import TenantSchema.Proofs.ValidDatasets

/-!
# Dictionaries that were valid once

A check that finds nothing wrong with a dictionary has resolved every reference that its fields lead
to. What is resolved stays so, and a dictionary keeps its fields. From then on the dictionary needs
nobody to find others for it: it stays valid, and its fields decode without a lookup.
-/

namespace TenantSchema

variable {σ : Type}

/-- The error says that a dictionary was not found, or the references did not come to an end. -/
def RecordError.isUnresolved : RecordError → Bool
  | .type _ cause => cause.isUnresolved
  | _ => false

namespace World

variable {w w' : World (Store σ)}

/-! ### Targets stay -/

theorem onStore_remembers {α : Type} (m : StateM (Store σ) α) : Keeps Remembers (onStore m) :=
  fun _ _ _ h => h

/-- Nothing that happens makes a resolved reference forgotten. -/
theorem remembers_steps [Outside σ] : HistorySteps (Remembers (τ := Store σ)) where
  onFields _ _ _ := onStore_remembers _
  resolve := LookupType.resolve_keeps (fun _ _ _ => onStore_remembers _)
    fun cell t w => w.remembers_remember cell t
  same m _ := onStore_remembers m
  dictionary _ _ _ := onStore_remembers _
  create _ _ _ _ := onStore_remembers _
  call _ := onStore_remembers _
  late _ := onStore_remembers _

/-! ### Worlds left alone -/

/-- Fields may have been derived, and that is all: no reference was resolved, nobody was asked, and
no registry has counted anything. -/
structure Undisturbed (w w' : World (Store σ)) : Prop where
  targets : w'.targets = w.targets
  store : w'.store = { w.store with datasets := w'.store.datasets }
  rests : w.Rests w'

instance : IsPreorder (World (Store σ)) Undisturbed where
  refl w := ⟨rfl, rfl, Std.Refl.refl (r := Rests) w⟩
  trans _ _ _ h h' := by
    refine ⟨h'.targets.trans h.targets, ?_, IsTrans.trans (r := Rests) _ _ _ h.rests h'.rests⟩
    rw [h'.store, h.store]

theorem Undisturbed.remembers (h : w.Undisturbed w') : w.Remembers w' := by
  intro cell t ht
  unfold target?
  rw [h.targets]
  exact ht

theorem undisturbed_deriving : Deriving (Undisturbed (σ := σ)) where
  onFields id step hstep w := by
    refine ⟨rfl, ?_, Store.deriving_rests.onFields id hstep w⟩
    have hstore : (onFields id step w).2.store = (Store.onFields id step w.store).2 := rfl
    rw [hstore, Store.onFields_eq]
    cases w.store.stored? id <;> rfl

/-! ### Types after a check -/

section Types

variable [Outside σ] {fields : List Field}

/-- After a check without errors all types are known. -/
theorem known_of_typeErrors (h : ∀ e ∈ (typeErrors fields w).1, e.2 = none) :
    ∀ f ∈ fields, f.type.Known (typeErrors fields w).2 (Outside.depth σ) := by
  induction fields generalizing w with
  | nil => simp
  | cons f rest ih =>
    rw [typeErrors_cons] at h ⊢
    rcases hrun : (f.type.validateDescriptor : Decoding (Store σ) Unit).run w with ⟨e | _, w₁⟩
    · rw [hrun] at h
      cases h (f, some e) List.mem_cons_self
    · rw [hrun] at h
      intro g hg
      rcases List.mem_cons.mp hg with rfl | hg
      · exact (FieldType.known_of_run hrun).later (remembers_steps.typeErrors rest w₁)
      · exact ih (fun e he => h e (List.mem_cons_of_mem _ he)) g hg

/-- A list without errors is the list of the fields. -/
theorem typeErrors_eq (h : ∀ e ∈ (typeErrors fields w).1, e.2 = none) :
    (typeErrors fields w).1 = fields.map fun f => (f, none) := by
  have hfields := typeErrors_fields fields w
  generalize (typeErrors fields w).1 = checked at h hfields
  subst hfields
  rw [List.map_map]
  exact (List.map_id' checked).symm.trans (List.map_congr_left fun e he => Prod.ext rfl (h e he))

theorem typeErrors_of_known (h : ∀ f ∈ fields, f.type.Known w (Outside.depth σ)) :
    typeErrors fields w = (fields.map fun f => (f, none), w) := by
  induction fields with
  | nil => rfl
  | cons f rest ih =>
    rw [typeErrors_cons, (h f List.mem_cons_self).validateDescriptor]
    dsimp only
    rw [ih fun g hg => h g (List.mem_cons_of_mem f hg)]
    rfl

end Types

end World

/-! ### Field lists in order -/

/-- Nothing is wrong with the fields and keys, and in this world all that the types lead to is known,
down to this depth at most. -/
structure Fields.Ready (w : World (Store σ)) (depth : Nat) (fs : Fields) : Prop where
  issues : fieldListIssues [] (fs.all.map fun f => (f, none)) = []
  keys : fs.keyIssues = []
  known : ∀ f ∈ fs.all, f.type.Known w depth

namespace Fields.Ready

variable {w w' : World (Store σ)} {depth : Nat} {fs fs' : Fields}

theorem later (h : fs.Ready w depth) (hw : w.Remembers w') : fs.Ready w' depth :=
  ⟨h.issues, h.keys, fun f hf => (h.known f hf).later hw⟩

theorem agrees (h : fs.Ready w depth) (hc : fs.Coherent) (hc' : fs'.Coherent)
    (ha : fs.Agrees fs') : fs'.Ready w depth := by
  refine ⟨?_, (ha.keyIssues_eq hc hc').trans h.keys, ?_⟩
  · rw [ha.all]
    exact h.issues
  · rw [ha.all]
    exact h.known

section Validation

variable {d : Descriptor} {stored : StoredDataset} (hw : w.store.Sound)
  (hd : w.store.stored? d.id = some stored)

include hw hd

/-- A dataset that is found valid is ready from then on. -/
theorem of_validateFields [Outside σ] (h : (World.validateFields d w).1 = .ok ()) :
    stored.dataset.fields.Ready (World.validateFields d w).2 (Outside.depth σ) := by
  rw [World.validateFields_ok_iff, World.datasetIssues_answer hw hd] at h
  obtain ⟨hfields, hkeys⟩ := List.append_eq_nil_iff.mp h
  have hnone := types_of_fieldListIssues hfields
  rw [World.validateFields_world, World.onFields_toList hw hd]
  refine ⟨?_, hkeys, fun f hf => ?_⟩
  · rw [← World.typeErrors_eq hnone]
    exact hfields
  -- the keys are looked at afterwards
  · exact (World.known_of_typeErrors hnone f hf).later (IsTrans.trans (r := World.Remembers) _ _ _
      (World.onStore_remembers _ _) (World.onStore_remembers _ _))

/-- A check of fields that are ready finds nothing wrong, asks nobody, and ends in the same world
whoever could be asked, if the stack is deep enough. -/
theorem validateFields (h : stored.dataset.fields.Ready w depth) :
    ∃ w', w.Undisturbed w' ∧
      ∀ [Outside σ], depth ≤ Outside.depth σ → World.validateFields d w = (.ok (), w') := by
  let w₁ := (World.onFields d.id Fields.toList w).2
  let w₂ := (World.onFields d.id Fields.primaryField w₁).2
  have hderive := World.undisturbed_deriving (σ := σ)
  have h₁ : w.Undisturbed w₁ := hderive.onFields d.id Fields.lookups_read.toList w
  have h₂ : w₁.Undisturbed w₂ := hderive.onFields d.id Fields.lookups_read.primaryField w₁
  have h₃ := hderive.onFields d.id Fields.lookups_read.displayField w₂
  refine ⟨_, IsTrans.trans (r := World.Undisturbed) _ _ _ h₁
    (IsTrans.trans (r := World.Undisturbed) _ _ _ h₂ h₃), ?_⟩
  intro houtside hdepth
  have hknown : World.typeErrors stored.dataset.fields.all w₁ = (_, w₁) :=
    World.typeErrors_of_known fun f hf => ((h.known f hf).later h₁.remembers).deeper hdepth
  refine Prod.ext (World.validateFields_ok_iff.mpr ?_) ?_
  · rw [World.datasetIssues_answer hw hd, hknown, h.issues, h.keys]
    rfl
  · rw [World.validateFields_world, World.onFields_toList hw hd, hknown]

end Validation

end Fields.Ready

/-! ### Writes to known fields -/

namespace Record

variable {w : World (Store σ)} {r : Record} {f : Field}

theorem slotAnswer_error {owned : Bool} {e : RecordError} (h : r.slotAnswer f owned = .error e) :
    e.isUnresolved = false := by
  unfold slotAnswer at h
  split_ifs at h <;> cases h <;> rfl

variable [Outside σ]

/-- A write to a field of a known type asks nobody, and nothing is missed. -/
theorem normalized_of_known (r : Record) (h : f.type.Known w (Outside.depth σ)) (source : Source) :
    w.Undisturbed ((r.normalized f source).run w).2 ∧
      ∀ e, ((r.normalized f source).run w).1 = .error e → e.isUnresolved = false := by
  have hslot := World.undisturbed_deriving.onFields r.descriptor.id (Fields.lookups_read.owns f) w
  have hdecode := (h.later hslot.remembers).decode source
  unfold normalized
  rw [run_bind, slot_run]
  generalize World.onFields r.descriptor.id (Fields.owns f) w = owned at hslot hdecode
  cases hs : r.slotAnswer f owned.1 with
  | error e =>
    refine ⟨hslot, fun e' he => ?_⟩
    cases he
    exact slotAnswer_error hs
  | ok i =>
    have hrun : (ExceptT.adapt (RecordError.type f.name) (f.type.decode source)).run owned.2 =
        (((f.type.decode source).run owned.2).1.mapError (RecordError.type f.name),
          ((f.type.decode source).run owned.2).2) := rfl
    dsimp only
    rw [hrun, hdecode.world]
    refine ⟨hslot, fun e he => ?_⟩
    cases hd : ((f.type.decode source).run owned.2).1 with
    | ok v =>
      rw [hd] at he
      cases he
    | error cause =>
      rw [hd] at he
      cases he
      exact hdecode.outcome cause hd

theorem set_of_known (r : Record) (h : f.type.Known w (Outside.depth σ)) (source : Source) :
    w.Undisturbed ((r.set f source).run w).2 ∧
      ∀ e, ((r.set f source).run w).1 = .error e → e.isUnresolved = false := by
  obtain ⟨hworld, hmissed⟩ := r.normalized_of_known h source
  rw [set_run]
  refine ⟨hworld, fun e he => hmissed e ?_⟩
  cases hn : ((r.normalized f source).run w).1 with
  | ok v =>
    rw [hn] at he
    cases he
  | error e' =>
    rw [hn] at he
    cases he
    rfl

end Record

/-! ### The main statement -/

/-- In this world the dictionary with these fields needs no lookup. Whatever the sources are like,
those included that write down every question, on a stack of this depth at least: the dictionary is
valid, checks and decodings by its fields leave the world as it is, writes at most derive fields, and
no error says that a dictionary was not found or that the stack was used up. -/
structure World.WorksAlone (w : World (Store σ)) (depth : Nat) (d : Descriptor)
    (fields : List Field) : Prop where
  listed : (onFields d.id Fields.toList w).1 = fields
  valid : ∃ w', w.Undisturbed w' ∧
    ∀ [Outside σ], depth ≤ Outside.depth σ → validate d w = (.ok (), w')
  validateDescriptor : ∀ [DictionarySource (Store σ)],
    depth ≤ DictionarySource.depth (Store σ) → ∀ f ∈ fields,
      (f.type.validateDescriptor : Decoding (Store σ) Unit).run w = (.ok (), w)
  decode : ∀ [DictionarySource (Store σ)], depth ≤ DictionarySource.depth (Store σ) →
    ∀ f ∈ fields, ∀ source, Answered w (f.type.decode source : Decoding (Store σ) Value)
  validateValue : ∀ [DictionarySource (Store σ)], depth ≤ DictionarySource.depth (Store σ) →
    ∀ f ∈ fields, ∀ v, Answered w (f.type.validate v : Decoding (Store σ) Unit)
  typedId : ∀ [DictionarySource (Store σ)], depth ≤ DictionarySource.depth (Store σ) →
    ∀ f ∈ fields, ∀ l, f.type.reference? = some l →
      ∀ r, Answered w (l.typedId r : Decoding (Store σ) Value)
  set : ∀ [Outside σ], depth ≤ Outside.depth σ → ∀ f ∈ fields, ∀ (r : Record) source,
    w.Undisturbed ((r.set f source).run w).2 ∧
      ∀ e, ((r.set f source).run w).1 = .error e → e.isUnresolved = false

/-- The fields that are ready are all that a dictionary needs. -/
theorem Fields.Ready.worksAlone {w : World (Store σ)} {depth : Nat} {d : Descriptor}
    {stored : StoredDataset} (h : stored.dataset.fields.Ready w depth) (hw : w.store.Sound)
    (hd : w.store.stored? d.id = some stored) (hkind : d.kind = .dictionary) :
    w.WorksAlone depth d stored.dataset.fields.all where
  listed := World.onFields_toList hw hd
  valid := by
    obtain ⟨w', hw', hvalid⟩ := h.validateFields hw hd
    exact ⟨w', hw', fun hdepth => (World.validate_dictionary hkind).trans (hvalid hdepth)⟩
  validateDescriptor hdepth f hf := ((h.known f hf).deeper hdepth).validateDescriptor
  decode hdepth f hf := ((h.known f hf).deeper hdepth).decode
  validateValue hdepth f hf := ((h.known f hf).deeper hdepth).validate
  typedId hdepth f hf _ hl := ((h.known f hf).deeper hdepth).typedId hl
  set hdepth f hf r := r.set_of_known ((h.known f hf).deeper hdepth)

/-- A dictionary that is found valid at one moment of a scene works alone from then on, whatever else
happens and whatever the sources answer, then and before. -/
theorem valid_dictionary_works_alone [Outside σ] (outside : σ) (calls : List (SceneCall σ))
    (s : Scene σ) (hs : s = after Scene.step calls (Scene.start outside)) (d : Descriptor)
    (dict : Dataset) (hdict : s.world.store.stored? d.id = some (.dictionary dict))
    (hvalid : (World.validate d s.world).1 = .ok ()) (later : List (SceneCall σ)) (t : Scene σ)
    (ht : t = after Scene.step (.validate d :: later) s) :
    t.world.WorksAlone (Outside.depth σ) d dict.fields.all := by
  have hsound : s.Sound := hs ▸ Scene.sound_after outside calls
  have hkind := World.kind_of_validate hdict hvalid
  have hready := Fields.Ready.of_validateFields hsound.store hdict
    (World.validateFields_of_validate hdict hvalid)
  -- the check is the first call, and nothing that comes later is forgotten
  have hnext : (s.next (.validate d)).world = (World.validateFields d s.world).2 := by
    show (World.validate d s.world).2 = _
    rw [World.validate_dictionary hkind]
  have hremembers : (World.validateFields d s.world).2.Remembers t.world := by
    rw [← hnext, ht]
    exact Scene.after_keeps_world World.remembers_steps later (s.next (.validate d))
  -- the dictionary keeps its fields
  obtain ⟨hadvances, hsound'⟩ := Scene.after_advances (.validate d :: later) s hsound
  rw [← ht] at hadvances hsound'
  obtain ⟨stored, hstored, hrests⟩ := Store.Advances.dictionary hadvances hsound.store hdict
  have hc : dict.fields.Coherent := (hsound.store _ _ hdict).coherent
  have hc' := (hsound'.store _ _ hstored).coherent
  have hready' := (hready.later hremembers).agrees hc hc' hrests.fields
  have hworks := hready'.worksAlone hsound'.store hstored hkind
  rwa [hrests.fields.all] at hworks

/-! ### Contacts after their registry -/

namespace ClosedRegistry

/-- All datasets are in one registry. -/
def registry : Registry := { domains := 1, metrics := 1 }

def via : Via := .weak registry

def regions : DatasetSpec :=
  { name := "regions", path := "regions", fields := [.ofKind "id" (.text .string)], primary := "id" }

/-- Cities are known by their region. -/
def cities : DatasetSpec :=
  { name := "cities", path := "cities", fields := [.ofType "region" (.lookup "regions")]
    primary := "region" }

/-- Contacts refer to a city, to some more, and to one another. -/
def contacts : DatasetSpec :=
  { name := "contacts", path := "contacts", primary := "id"
    fields := [.ofKind "id" (.signed .int), .ofType "city" (.lookup "cities"),
      .listOf "visited" (.lookup "cities"), .ofType "manager" (.lookup "contacts")] }

def dictionary (id : Nat) (spec : DatasetSpec) : Descriptor :=
  (Dataset.ofSpec id .dictionary 0 spec via).descriptor

def calls : List (SceneCall Directory) :=
  [.addRegistry {}, .addDictionary 0 regions via, .addDictionary 0 cities via,
    .addDictionary 0 contacts via, .registry (.register registry (dictionary 0 regions)),
    .registry (.register registry (dictionary 1 cities)),
    .registry (.register registry (dictionary 2 contacts))]

def scene : Scene Directory := after Scene.step calls (Scene.start {})

/-- The registry goes away after the check. -/
def closed : Scene Directory :=
  after Scene.step [.validate (dictionary 2 contacts), .forget [1] []] scene

theorem contacts_valid : (World.validate (dictionary 2 contacts) scene.world).1 = .ok () := by
  decide +kernel

theorem contacts_there : ∃ dict, scene.world.store.stored? 2 = some (.dictionary dict) :=
  Store.exists_dictionary (by decide +kernel) (by decide +kernel)

/-- Without the check, nobody would find the cities. -/
example : (World.validate (dictionary 2 contacts)
    (after Scene.step [.forget [1] []] scene).world).1 ≠ .ok () := by
  decide +kernel

end ClosedRegistry

open ClosedRegistry in
theorem contacts_work_alone :
    (World.validate (dictionary 2 contacts) scene.world).1 = .ok () ∧
      ∃ dict, scene.world.store.stored? 2 = some (.dictionary dict) ∧
        closed.world.WorksAlone (Outside.depth Directory) (dictionary 2 contacts)
          dict.fields.all := by
  obtain ⟨dict, hdict⟩ := contacts_there
  have hscene : scene = after Scene.step calls (Scene.start {}) := by
    unfold scene
    rfl
  have hclosed : closed =
      after Scene.step (.validate (dictionary 2 contacts) :: [.forget [1] []]) scene := by
    unfold closed
    rfl
  exact ⟨contacts_valid, dict, hdict, valid_dictionary_works_alone ({} : Directory) calls scene hscene
    (dictionary 2 contacts) dict hdict contacts_valid [.forget [1] []] closed hclosed⟩

end TenantSchema
