import TenantSchema.Proofs.FieldsRetained
import TenantSchema.Proofs.RegistryCalls

/-!
# What becomes of datasets

A dataset never goes away and never becomes another one. Whatever happens to a store, the field list
of a dataset stays as it was or is at a later version, and it stays coherent. A version is later
only if an extension has found its base.
-/

namespace TenantSchema

namespace StoredDataset

/-- An extension that has not found its base yet. -/
def IsPending (d : StoredDataset) : Prop := ∃ x, d = .extension x ∧ x.base = none

/-- What an extension looks its base up by, and the fields that it adds to it. -/
def made : StoredDataset → Option (String × List FieldSpec × Via)
  | .dictionary _ => none
  | .extension x => some (x.baseKey, x.custom, x.via)

/-- A dataset as it is found under its number. -/
structure Sound (id : Nat) (d : StoredDataset) : Prop where
  numbered : d.dataset.descriptor.id = id
  owned : d.dataset.fields.owner = id
  coherent : d.dataset.fields.Coherent
  first : d.IsPending → d.dataset.fields.version = 1
  kind : d.IsPending → d.dataset.descriptor.kind = .extension

/-- Fields that came from the list of a dataset come from it still. -/
def Recalls (d d' : StoredDataset) : Prop :=
  ∀ f, d.dataset.fields.CameFrom f → d'.dataset.fields.CameFrom f

/-- The same field list at the same version. -/
structure Rests (d d' : StoredDataset) : Prop where
  descriptor : d'.dataset.descriptor = d.dataset.descriptor
  fields : d.dataset.fields.Agrees d'.dataset.fields
  recalls : d.Recalls d'
  pending : d'.IsPending ↔ d.IsPending
  made : d'.made = d.made

/-- A later version of the field list, of an extension that has found its base. -/
structure Renews (d d' : StoredDataset) : Prop where
  pending : d.IsPending
  descriptor : d'.dataset.descriptor = d.dataset.descriptor
  version : d.dataset.fields.version < d'.dataset.fields.version
  recalls : d.Recalls d'

/-- What may become of a dataset in the long run. -/
def Evolves (d d' : StoredDataset) : Prop := d.Rests d' ∨ d.Renews d'

variable {d d' d'' : StoredDataset} {id : Nat}

instance : IsPreorder StoredDataset Rests where
  refl _ := ⟨rfl, .refl _, fun _ hf => hf, Iff.rfl, rfl⟩
  trans _ _ _ h h' :=
    ⟨h'.descriptor.trans h.descriptor, h.fields.trans h'.fields,
      fun f hf => h'.recalls f (h.recalls f hf), h'.pending.trans h.pending,
      h'.made.trans h.made⟩

theorem Evolves.descriptor (h : d.Evolves d') :
    d'.dataset.descriptor = d.dataset.descriptor := by
  rcases h with h | h
  · exact h.descriptor
  · exact h.descriptor

theorem Evolves.recalls (h : d.Evolves d') : d.Recalls d' := by
  rcases h with h | h
  · exact h.recalls
  · exact h.recalls

theorem Evolves.trans (h : d.Evolves d') (h' : d'.Evolves d'') : d.Evolves d'' := by
  have hd := h'.descriptor.trans h.descriptor
  have hf : d.Recalls d'' := fun f hf => h'.recalls f (h.recalls f hf)
  rcases h with hr | ⟨hp, -, hlt, -⟩
  · rcases h' with hr' | ⟨hp', -, hlt', -⟩
    · exact .inl (IsTrans.trans _ _ _ hr hr')
    · rw [hr.fields.version] at hlt'
      exact .inr ⟨hr.pending.mp hp', hd, hlt', hf⟩
  · rcases h' with hr' | ⟨-, -, hlt', -⟩
    · rw [← hr'.fields.version] at hlt
      exact .inr ⟨hp, hd, hlt, hf⟩
    · exact .inr ⟨hp, hd, UInt32.lt_trans hlt hlt', hf⟩

instance : IsPreorder StoredDataset Evolves where
  refl d := .inl (Std.Refl.refl d)
  trans _ _ _ := Evolves.trans

/-- Only an extension without its base is ever rebuilt. -/
theorem Evolves.rests (h : d.Evolves d') (hd : ¬ d.IsPending) : d.Rests d' := by
  rcases h with h | h
  · exact h
  · exact absurd h.pending hd

/-- An extension that is still pending has been at rest. -/
theorem Evolves.rests_of_pending (h : d.Evolves d') (hs : d.Sound id) (hs' : d'.Sound id)
    (hd : d'.IsPending) : d.Rests d' := by
  rcases h with h | h
  · exact h
  · have hlt := h.version
    rw [hs.first h.pending, hs'.first hd] at hlt
    exact absurd rfl (UInt32.ne_of_lt hlt)

@[simp] theorem dataset_setFields (fields : Fields) (d : StoredDataset) :
    (d.setFields fields).dataset = { d.dataset with fields } := by
  cases d <;> rfl

theorem made_setFields (fields : Fields) (d : StoredDataset) :
    (d.setFields fields).made = d.made := by
  cases d <;> rfl

theorem isPending_setFields (fields : Fields) (d : StoredDataset) :
    (d.setFields fields).IsPending ↔ d.IsPending := by
  cases d with
  | dictionary d => simp [IsPending, setFields]
  | extension x => simp [IsPending, setFields]

/-- A step of the field list that derives fields. -/
theorem Sound.setFields (h : d.Sound id) {fields : Fields}
    (hr : d.dataset.fields.Reads fields) :
    (d.setFields fields).Sound id ∧ d.Rests (d.setFields fields) := by
  obtain ⟨hc, ha⟩ := hr.derives h.coherent
  have hp := isPending_setFields fields d
  refine ⟨⟨?_, ?_, ?_, fun hpend => ?_, fun hpend => ?_⟩, ?_, ?_, fun f hf => ?_, hp,
    made_setFields fields d⟩
  · rw [dataset_setFields]
    exact h.numbered
  · rw [dataset_setFields]
    exact ha.owner.trans h.owned
  · rw [dataset_setFields]
    exact hc
  · rw [dataset_setFields]
    exact ha.version.trans (h.first (hp.mp hpend))
  · rw [dataset_setFields]
    exact h.kind (hp.mp hpend)
  · rw [dataset_setFields]
  · rw [dataset_setFields]
    exact ha
  · rw [dataset_setFields]
    exact hf.reads h.coherent hr

theorem sound_dictionary (domain : Int) (spec : DatasetSpec) (via : Via) :
    (StoredDataset.dictionary (.ofSpec id .dictionary domain spec via)).Sound id where
  numbered := rfl
  owned := rfl
  coherent := Fields.ofSpecs_coherent _ _ _ _
  first h := by
    obtain ⟨x, hx, -⟩ := h
    cases hx
  kind h := by
    obtain ⟨x, hx, -⟩ := h
    cases hx

theorem sound_extension (domain : Int) (spec : DatasetSpec) (via : Via)
    (found : Except DatasetError Base) :
    (StoredDataset.extension (.ofSpec id domain spec via found)).Sound id where
  numbered := rfl
  owned := rfl
  coherent := Fields.ofSpecs_coherent _ _ _ _
  first _ := rfl
  kind _ := rfl

/-- An extension that finds its base moves on to its second version, one that does not stays. -/
theorem Sound.resolved {x : Extension} (h : (StoredDataset.extension x).Sound id)
    (hb : x.base = none) (found : Except DatasetError Base) :
    (StoredDataset.extension (x.resolved found)).Sound id ∧
      (StoredDataset.extension x).Evolves (.extension (x.resolved found)) := by
  have hv : x.dataset.fields.version = 1 := h.first ⟨x, rfl, hb⟩
  have hk : x.dataset.descriptor.kind = .extension := h.kind ⟨x, rfl, hb⟩
  have hlt : x.dataset.fields.version < Fields.nextVersion x.dataset.fields.version := by
    rw [hv]
    decide
  cases found with
  | error e =>
    refine ⟨⟨h.numbered, h.owned, h.coherent, fun _ => hv, fun _ => hk⟩,
      .inl ⟨rfl, .refl _, fun _ hf => hf, ?_, rfl⟩⟩
    exact ⟨fun _ => ⟨x, rfl, hb⟩, fun _ => ⟨_, rfl, hb⟩⟩
  | ok base =>
    refine ⟨⟨h.numbered, h.owned, h.coherent.reset hlt _ _ _, fun hp => ?_, fun _ => hk⟩,
      .inr ⟨⟨x, rfl, hb⟩, rfl, hlt, fun f hf => hf.reset h.coherent hlt _ _ _⟩⟩
    obtain ⟨y, hy, hn⟩ := hp
    cases hy
    cases hn

end StoredDataset

/-! ### Stores -/

namespace Store

variable {σ : Type} {s s' s'' : Store σ}

def Sound (s : Store σ) : Prop := ∀ id d, s.stored? id = some d → d.Sound id

/-- A sound store stays sound, and every dataset is still there and related to what it was. -/
def Moves (Q : StoredDataset → StoredDataset → Prop) (s s' : Store σ) : Prop :=
  s.Sound → s'.Sound ∧ ∀ id d, s.stored? id = some d → ∃ d', s'.stored? id = some d' ∧ Q d d'

theorem Moves.mono {Q Q' : StoredDataset → StoredDataset → Prop} (h : Moves Q s s')
    (hq : ∀ d d', Q d d' → Q' d d') : Moves Q' s s' := by
  intro hs
  refine ⟨(h hs).1, fun id d hd => ?_⟩
  obtain ⟨d', hd', hdq⟩ := (h hs).2 id d hd
  exact ⟨d', hd', hq d d' hdq⟩

section Moves

variable {Q : StoredDataset → StoredDataset → Prop} [IsPreorder StoredDataset Q]

instance : IsPreorder (Store σ) (Moves Q) where
  refl s h := ⟨h, fun _ d hd => ⟨d, hd, Std.Refl.refl d⟩⟩
  trans _ _ _ h h' hs := by
    refine ⟨(h' (h hs).1).1, fun id d hd => ?_⟩
    obtain ⟨d', hd', hq⟩ := (h hs).2 id d hd
    obtain ⟨d'', hd'', hq'⟩ := (h' (h hs).1).2 id d' hd'
    exact ⟨d'', hd'', IsTrans.trans _ _ _ hq hq'⟩

theorem moves_of_datasets_eq (h : s'.datasets = s.datasets) : Moves Q s s' := by
  have hst : ∀ id, s'.stored? id = s.stored? id := fun id => by rw [stored?, h, stored?]
  intro hs
  refine ⟨fun id d hd => ?_, fun id d hd => ⟨d, ?_, Std.Refl.refl d⟩⟩
  · rw [hst] at hd
    exact hs id d hd
  · rw [hst]
    exact hd

theorem stored?_set {id : Nat} {d : StoredDataset} (hd : s.stored? id = some d) (d' : StoredDataset)
    (i : Nat) :
    stored? i { s with datasets := s.datasets.set id d' } =
      if id = i then some d' else s.stored? i := by
  show (s.datasets.set id d')[i]? = _
  by_cases hi : id = i
  · subst hi
    rw [if_pos rfl, List.getElem?_set_self (List.getElem?_eq_some_iff.mp hd).1]
  · rw [if_neg hi, List.getElem?_set_ne hi]
    rfl

theorem stored?_append {i : Nat} {d' : StoredDataset} (h : s.stored? i = some d')
    (d : StoredDataset) : stored? i { s with datasets := s.datasets ++ [d] } = some d' :=
  (List.getElem?_append_left (List.getElem?_eq_some_iff.mp h).1).trans h

theorem stored?_append_cases {i : Nat} {d d' : StoredDataset}
    (h : stored? i { s with datasets := s.datasets ++ [d] } = some d') :
    s.stored? i = some d' ∨ i = s.datasets.length ∧ d' = d := by
  change (s.datasets ++ [d])[i]? = some d' at h
  by_cases hlt : i < s.datasets.length
  · rw [List.getElem?_append_left hlt] at h
    exact .inl h
  · rw [List.getElem?_append_right (by omega), List.getElem?_singleton] at h
    split at h
    · next hz => exact .inr ⟨by omega, (Option.some.inj h).symm⟩
    · cases h

/-- One dataset is replaced by what becomes of it. -/
theorem moves_set {id : Nat} {d d' : StoredDataset} (hd : s.stored? id = some d)
    (h : d.Sound id → d'.Sound id ∧ Q d d') :
    Moves Q s { s with datasets := s.datasets.set id d' } := by
  intro hs
  obtain ⟨hsound, hq⟩ := h (hs id d hd)
  constructor
  · intro i di hi
    rw [stored?_set hd] at hi
    split at hi
    · next hid =>
      cases hi
      exact hid ▸ hsound
    · exact hs i di hi
  · intro i di hi
    rw [stored?_set hd]
    split
    · next hid =>
      subst hid
      rw [hd] at hi
      cases hi
      exact ⟨d', rfl, hq⟩
    · exact ⟨di, hi, Std.Refl.refl di⟩

theorem moves_append {d : StoredDataset} (h : d.Sound s.datasets.length) :
    Moves Q s { s with datasets := s.datasets ++ [d] } := by
  intro hs
  constructor
  · intro i di hi
    rcases stored?_append_cases hi with hi | ⟨rfl, rfl⟩
    · exact hs i di hi
    · exact h
  · exact fun i di hi => ⟨di, stored?_append hi d, Std.Refl.refl di⟩

end Moves

/-- No field list is rebuilt. -/
abbrev Rests (s s' : Store σ) : Prop := Moves StoredDataset.Rests s s'

/-- Field lists may be rebuilt. -/
abbrev Advances (s s' : Store σ) : Prop := Moves StoredDataset.Evolves s s'

theorem Rests.advances (h : s.Rests s') : s.Advances s' := h.mono fun _ _ => .inl

/-! ### Steps -/

theorem onFields_eq {α : Type} [Inhabited α] (id : Nat) (step : StateM Fields α) (s : Store σ) :
    onFields id step s =
      match s.stored? id with
      | none => (default, s)
      | some d =>
        ((step d.dataset.fields).1,
          { s with datasets := s.datasets.set id (d.setFields (step d.dataset.fields).2) }) := by
  unfold onFields
  cases s.stored? id <;> rfl

theorem onFields_rests {α : Type} [Inhabited α] (id : Nat) {step : StateM Fields α}
    (h : Keeps Fields.Reads step) : Keeps Rests (onFields (σ := σ) id step) := by
  intro s
  rw [onFields_eq]
  cases hd : s.stored? id with
  | none => exact Std.Refl.refl s
  | some d => exact moves_set hd fun hs => hs.setFields (h _)

theorem addDictionary_rests (domain : Int) (spec : DatasetSpec) (via : Via) :
    Keeps Rests (addDictionary (σ := σ) domain spec via) :=
  fun _ => moves_append (StoredDataset.sound_dictionary domain spec via)

/-- `R` is kept where fields are derived. -/
structure Deriving (R : Store σ → Store σ → Prop) : Prop where
  derive : ∀ {α : Type} [Inhabited α] (id : Nat) {step : StateM Fields α},
    Keeps Fields.Reads step → Keeps R (onFields id step)

/-- `R` is kept where fields are derived and where the datasets are left alone. -/
structure DatasetSteps (R : Store σ → Store σ → Prop) : Prop extends Deriving R where
  same : ∀ {s s' : Store σ}, s'.datasets = s.datasets → R s s'

namespace DatasetSteps

variable {R : Store σ → Store σ → Prop} (h : DatasetSteps R)

include h

theorem register (r : Registry) (d : Descriptor) : Keeps R (register r d) := by
  intro s
  rw [register_eq]
  refine h.same ?_
  split
  · rfl
  · dsimp only
    split <;> rfl

theorem unregister (r : Registry) (d : Descriptor) : Keeps R (unregister r d) := by
  intro s
  rw [unregister_eq]
  refine h.same ?_
  dsimp only
  split <;> rfl

/-- No registry touches a dataset. -/
theorem lookupSteps : LookupSteps R where
  lookup _ _ _ := fun _ => h.same rfl
  emit _ _ := fun _ => h.same rfl
  install _ _ := fun _ => h.same (by unfold installResolver; split <;> rfl)
  outside _ := fun _ => h.same rfl
  primary id := h.derive id Fields.lookups_read.primaryField

end DatasetSteps

theorem datasetSteps_rest : DatasetSteps (Rests (σ := σ)) where
  derive := onFields_rests
  same := moves_of_datasets_eq

theorem steps_rest : StepsKeep (Rests (σ := σ)) where
  toLookupSteps := datasetSteps_rest.lookupSteps
  register := datasetSteps_rest.register
  unregister := datasetSteps_rest.unregister
  add domain spec via found :=
    fun _ => moves_append (StoredDataset.sound_extension domain spec via found)

/-! ### Late bases -/

theorem extension?_eq_some {id : Nat} {x : Extension} :
    s.extension? id = some x ↔ s.stored? id = some (.extension x) := by
  unfold extension?
  cases s.stored? id with
  | none => simp
  | some d => cases d <;> simp [StoredDataset.extension?]

theorem exists_dictionary {id : Nat} (h : (s.stored? id).isSome = true)
    (hx : (s.extension? id).isNone = true) : ∃ d, s.stored? id = some (.dictionary d) := by
  obtain ⟨d, hd⟩ := Option.isSome_iff_exists.mp h
  cases d with
  | dictionary d => exact ⟨d, hd⟩
  | extension x =>
    rw [extension?_eq_some.mpr hd] at hx
    cases hx

/-- An extension that finds its base gets a later version of its field list. -/
theorem Advances.version_lt (h : s.Advances s') (hs : s.Sound) {id : Nat} {x y : Extension}
    (hx : s.extension? id = some x) (hpending : x.base = none)
    (hy : s'.extension? id = some y) (hfound : y.base ≠ none) :
    x.dataset.fields.version < y.dataset.fields.version := by
  obtain ⟨d, hd, hq⟩ := (h hs).2 id _ (extension?_eq_some.mp hx)
  rw [extension?_eq_some.mp hy] at hd
  cases hd
  rcases hq with hrest | hrenew
  · obtain ⟨z, hz, hnone⟩ := hrest.pending.mpr ⟨x, rfl, hpending⟩
    cases hz
    exact absurd hnone hfound
  · exact hrenew.version

variable [Outside σ]

theorem baseDictionary_eq (id : Nat) (s : Store σ) :
    baseDictionary id s =
      match s.extension? id with
      | none => (.error (.baseNotFound ""), s)
      | some x =>
        match x.base with
        | some base => (.ok base, s)
        | none =>
          let found := findBase x.via x.baseKey x.descriptor.path s
          (found.1.map (·.descriptor),
            match found.2.extension? id with
            | some x => found.2.setExtension id (x.resolved found.1)
            | none => found.2) := by
  unfold baseDictionary
  rw [get_bind_apply]
  cases s.extension? id with
  | none => rfl
  | some x =>
    dsimp only
    cases x.base <;> rfl

theorem baseDictionary_known {id : Nat} {s : Store σ}
    (h : ¬∃ x, s.extension? id = some x ∧ x.base = none) : (baseDictionary id s).2 = s := by
  rw [baseDictionary_eq]
  cases hx : s.extension? id with
  | none => rfl
  | some x =>
    dsimp only
    cases hb : x.base with
    | some base => rfl
    | none => exact absurd ⟨x, hx, hb⟩ h

/-- Nothing resolves an extension while its base is looked for. It is read again after the search,
it is still pending then, and what was found becomes its base. -/
theorem baseDictionary_pending {id : Nat} {s : Store σ} {x : Extension} (hs : s.Sound)
    (hx : s.extension? id = some x) (hb : x.base = none) :
    ∃ y, (findBase x.via x.baseKey x.descriptor.path s).2.stored? id = some (.extension y) ∧
      y.base = none ∧ (StoredDataset.extension x).Rests (.extension y) ∧
      baseDictionary id s =
        let found := findBase x.via x.baseKey x.descriptor.path s
        (found.1.map (·.descriptor), found.2.setExtension id (y.resolved found.1)) := by
  have hrest : s.Rests (findBase x.via x.baseKey x.descriptor.path s).2 :=
    steps_rest.findBase _ _ _ s
  obtain ⟨d, hd, hq⟩ := (hrest hs).2 id _ (extension?_eq_some.mp hx)
  obtain ⟨y, rfl, hy⟩ := hq.pending.mpr ⟨x, rfl, hb⟩
  refine ⟨y, hd, hy, hq, ?_⟩
  rw [baseDictionary_eq, hx]
  dsimp only
  rw [hb]
  dsimp only
  rw [extension?_eq_some.mpr hd]

theorem baseDictionary_advances (id : Nat) : Keeps Advances (baseDictionary (σ := σ) id) := by
  intro s hs
  by_cases hpending : ∃ x, s.extension? id = some x ∧ x.base = none
  · obtain ⟨x, hx, hb⟩ := hpending
    obtain ⟨y, hy, hyb, -, heq⟩ := baseDictionary_pending hs hx hb
    have hrest : s.Rests (findBase x.via x.baseKey x.descriptor.path s).2 :=
      steps_rest.findBase _ _ _ s
    rw [heq]
    exact IsTrans.trans (r := Advances) _ _ _ hrest.advances
      (moves_set hy fun h => h.resolved hyb _) hs
  · rw [baseDictionary_known hpending]
    exact Std.Refl.refl (r := Advances) s hs

theorem call_advances (c : RegistryCall) : Keeps Advances (call (σ := σ) c) :=
  (steps_rest.call c).mono fun _ _ => Rests.advances

end Store

end TenantSchema
