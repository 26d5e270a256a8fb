import TenantSchema.Proofs.BaseResolution
import TenantSchema.Proofs.SceneSteps

/-!
# An extension on its way to its base

An extension has its base or the failure of the last search for it. It finds its base once and for
good: then its field list is rebuilt at the next version, and at no other time. Its header never
changes.
-/

namespace TenantSchema

namespace Extension

variable {x y z : Extension}

/-- There is a failure on record exactly as long as the base is missing. -/
def Recorded (x : Extension) : Prop := x.isResolved = true ↔ x.failure = none

/-- The field list of `y` is the one of `x` rebuilt, one version later. -/
structure Rebuilt (x y : Extension) : Prop where
  version : y.dataset.fields.version = x.dataset.fields.version + 1
  list : ∃ primary, y.dataset.fields.specs = merge primary x.custom ∧
    y.dataset.fields.keys = .of primary.id primary.id

/-- The extension `x` at a later moment: it is as it was, or has found its base in between. -/
structure Continues (x y : Extension) : Prop where
  descriptor : y.descriptor = x.descriptor
  custom : y.custom = x.custom
  list : (y.base = x.base ∧ x.dataset.fields.Agrees y.dataset.fields) ∨
    (x.base = none ∧ y.base ≠ none ∧ x.Rebuilt y)

theorem Rebuilt.after_agrees (ha : x.dataset.fields.Agrees y.dataset.fields)
    (hcustom : y.custom = x.custom) (h : y.Rebuilt z) : x.Rebuilt z := by
  obtain ⟨hversion, primary, hspecs, hkeys⟩ := h
  rw [ha.version] at hversion
  rw [hcustom] at hspecs
  exact ⟨hversion, primary, hspecs, hkeys⟩

theorem Rebuilt.before_agrees (h : x.Rebuilt y) (ha : y.dataset.fields.Agrees z.dataset.fields) :
    x.Rebuilt z := by
  obtain ⟨hversion, primary, hspecs, hkeys⟩ := h
  exact ⟨ha.version.trans hversion, primary, ha.specs.trans hspecs, ha.keys.trans hkeys⟩

instance : IsPreorder Extension Continues where
  refl x := ⟨rfl, rfl, .inl ⟨rfl, .refl _⟩⟩
  trans x y z h h' := by
    refine ⟨h'.descriptor.trans h.descriptor, h'.custom.trans h.custom, ?_⟩
    rcases h.list with ⟨hbase, ha⟩ | ⟨hnone, hsome, hrebuilt⟩
    · rcases h'.list with ⟨hbase', ha'⟩ | ⟨hnone', hsome', hrebuilt'⟩
      · exact .inl ⟨hbase'.trans hbase, ha.trans ha'⟩
      · exact .inr ⟨hbase.symm.trans hnone', hsome', hrebuilt'.after_agrees ha h.custom⟩
    · rcases h'.list with ⟨hbase', ha'⟩ | ⟨hnone', -, -⟩
      · exact .inr ⟨hnone, hbase'.trans_ne hsome, hrebuilt.before_agrees ha'⟩
      · exact absurd hnone' hsome

/-- The base stays. -/
theorem Continues.base (h : x.Continues y) {base : Descriptor} (hx : x.base = some base) :
    y.base = some base := by
  rcases h.list with ⟨hbase, -⟩ | ⟨hnone, -, -⟩
  · exact hbase.trans hx
  · rw [hnone] at hx
    cases hx

theorem ofSpec_recorded (id : Nat) (domain : Int) (spec : DatasetSpec) (via : Via)
    (found : Except DatasetError Base) : (ofSpec id domain spec via found).Recorded := by
  cases found <;> simp [Recorded, ofSpec, isResolved, Except.toOption]

theorem resolved_recorded (hx : x.base = none) (found : Except DatasetError Base) :
    (x.resolved found).Recorded := by
  cases found <;> simp [Recorded, resolved, isResolved, hx]

/-- What a search makes of an extension that is at its first version. -/
theorem continues_resolved (hx : x.base = none) (hversion : x.dataset.fields.version = 1)
    (found : Except DatasetError Base) : x.Continues (x.resolved found) := by
  refine ⟨by cases found <;> rfl, by cases found <;> rfl, ?_⟩
  cases found with
  | error e => exact .inl ⟨rfl, .refl _⟩
  | ok base =>
    refine .inr ⟨hx, Option.some_ne_none _, ?_, base.primary, rfl, rfl⟩
    show Fields.nextVersion x.dataset.fields.version = x.dataset.fields.version + 1
    rw [hversion]
    rfl

/-- What a call for the base answers, and the extension before and after it. -/
structure Answers (x y : Extension) (answer : Except DatasetError Descriptor) : Prop where
  failed : ∀ e, answer = .error e → x.base = none ∧ y.base = none ∧ y.failure = some e ∧
    x.dataset.fields.Agrees y.dataset.fields
  found : ∀ base, answer = .ok base → y.base = some base ∧ y.failure = none

end Extension

namespace StoredDataset

/-- An extension continues; nothing is said about a dictionary. -/
def Continues (d d' : StoredDataset) : Prop :=
  ∀ x, d = .extension x → ∃ y, d' = .extension y ∧ x.Continues y

instance : IsPreorder StoredDataset Continues where
  refl _ x hx := ⟨x, hx, Std.Refl.refl x⟩
  trans _ _ _ h h' x hx := by
    obtain ⟨y, hy, hxy⟩ := h x hx
    obtain ⟨z, hz, hyz⟩ := h' y hy
    exact ⟨z, hz, IsTrans.trans _ _ _ hxy hyz⟩

theorem continues_setFields {d : StoredDataset} {fields : Fields}
    (ha : d.dataset.fields.Agrees fields) : d.Continues (d.setFields fields) := by
  rintro x rfl
  exact ⟨_, rfl, rfl, rfl, .inl ⟨rfl, ha⟩⟩

end StoredDataset

namespace Store

variable {σ : Type} {s : Store σ} {id : Nat} {x : Extension}

/-! ### Continuing -/

theorem datasetSteps_continue : DatasetSteps (Moves (σ := σ) StoredDataset.Continues) where
  derive id step hstep := by
    intro s
    rw [onFields_eq]
    cases hd : s.stored? id with
    | none => exact Std.Refl.refl s
    | some d =>
      refine moves_set hd fun hs => ⟨(hs.setFields (hstep _)).1, ?_⟩
      exact StoredDataset.continues_setFields ((hstep _).derives hs.coherent).2
  same := moves_of_datasets_eq

variable [Outside σ]

/-- A search for the base leaves the extension as it is, and then makes what it makes of it. -/
theorem baseDictionary_continues (id : Nat) :
    Keeps (Moves (σ := σ) StoredDataset.Continues) (baseDictionary id) := by
  intro s hs
  by_cases hpending : ∃ x, s.extension? id = some x ∧ x.base = none
  · obtain ⟨x, hx, hb⟩ := hpending
    obtain ⟨y, hy, hyb, -, heq⟩ := baseDictionary_pending hs hx hb
    have hfound := datasetSteps_continue.lookupSteps.findBase x.via x.baseKey x.descriptor.path s
    rw [heq]
    refine IsTrans.trans (r := Moves StoredDataset.Continues) _ _ _ hfound (moves_set hy fun h => ?_) hs
    refine ⟨(h.resolved hyb _).1, fun z hz => ?_⟩
    cases hz
    exact ⟨_, rfl, Extension.continues_resolved hyb (h.first ⟨y, rfl, hyb⟩) _⟩
  · rw [baseDictionary_known hpending]
    exact Std.Refl.refl (r := Moves StoredDataset.Continues) s hs

theorem historySteps_continue : HistorySteps (Moves (σ := σ) StoredDataset.Continues) where
  toDatasetSteps := datasetSteps_continue
  dictionary domain spec via :=
    fun _ => moves_append (StoredDataset.sound_dictionary domain spec via)
  new domain spec via := by
    unfold newExtension
    refine Keeps.bind (datasetSteps_continue.lookupSteps.findBase via _ _) fun found => ?_
    exact fun _ => moves_append (StoredDataset.sound_extension domain spec via found)
  extend domain base spec := by
    unfold extendDictionary
    refine Keeps.bind (datasetSteps_continue.lookupSteps.checkBase _ base) fun found => ?_
    exact fun _ => moves_append (StoredDataset.sound_extension domain spec .default found)
  late := baseDictionary_continues

/-! ### Failures on record -/

omit [Outside σ]

/-- A sound store in which every extension has its base or a failure. -/
structure Recorded (s : Store σ) : Prop where
  sound : s.Sound
  extensions : ∀ {id : Nat} {x : Extension}, s.extension? id = some x → x.Recorded

theorem Recorded.set {d d' : StoredDataset} (h : s.Recorded) (hd : s.stored? id = some d)
    (hsound : Sound { s with datasets := s.datasets.set id d' })
    (hnew : ∀ x, d' = .extension x → x.Recorded) :
    Recorded { s with datasets := s.datasets.set id d' } := by
  refine ⟨hsound, fun {i x} hx => ?_⟩
  have hx := extension?_eq_some.mp hx
  rw [stored?_set hd] at hx
  split at hx
  · exact hnew x (Option.some.inj hx)
  · exact h.extensions (extension?_eq_some.mpr hx)

theorem Recorded.append {d : StoredDataset} (h : s.Recorded)
    (hsound : Sound { s with datasets := s.datasets ++ [d] })
    (hnew : ∀ x, d = .extension x → x.Recorded) :
    Recorded { s with datasets := s.datasets ++ [d] } := by
  refine ⟨hsound, fun {i x} hx => ?_⟩
  rcases stored?_append_cases (extension?_eq_some.mp hx) with hx | ⟨-, hx⟩
  · exact h.extensions (extension?_eq_some.mpr hx)
  · exact hnew x hx.symm

theorem Recorded.addExtension (h : s.Recorded) (domain : Int) (spec : DatasetSpec) (via : Via)
    (found : Except DatasetError Base) : (addExtension domain spec via found s).2.Recorded := by
  refine h.append (moves_append (Q := StoredDataset.Rests)
    (StoredDataset.sound_extension domain spec via found) h.sound).1 fun x hx => ?_
  cases hx
  exact Extension.ofSpec_recorded _ domain spec via found

theorem datasetSteps_recorded : DatasetSteps (Carries (Recorded (σ := σ))) where
  same {s s'} hsame h := by
    refine ⟨(datasetSteps_rest.same hsame h.sound).1, fun {id x} hx => ?_⟩
    have hx' : s.extension? id = some x := by
      rwa [extension?, stored?, hsame] at hx
    exact h.extensions hx'
  derive id step hstep := by
    intro s h
    have hsound := (onFields_rests id hstep s h.sound).1
    rw [onFields_eq] at hsound ⊢
    cases hd : s.stored? id with
    | none => exact h
    | some d =>
      rw [hd] at hsound
      refine h.set hd hsound fun x hx => ?_
      cases d with
      | dictionary dict => cases hx
      | extension y =>
        have hy : y.Recorded := h.extensions (extension?_eq_some.mpr hd)
        cases hx
        exact hy

variable [Outside σ]

theorem Recorded.baseDictionary (h : s.Recorded) (id : Nat) : (baseDictionary id s).2.Recorded := by
  by_cases hpending : ∃ x, s.extension? id = some x ∧ x.base = none
  · obtain ⟨x, hx, hb⟩ := hpending
    obtain ⟨y, hy, hyb, -, heq⟩ := baseDictionary_pending h.sound hx hb
    have hsound := (baseDictionary_advances id s h.sound).1
    have hfound := datasetSteps_recorded.lookupSteps.findBase x.via x.baseKey x.descriptor.path s h
    rw [heq] at hsound ⊢
    refine hfound.set hy hsound fun z hz => ?_
    cases hz
    exact Extension.resolved_recorded hyb _
  · rw [baseDictionary_known hpending]
    exact h

theorem historySteps_recorded : HistorySteps (Carries (Recorded (σ := σ))) where
  toDatasetSteps := datasetSteps_recorded
  dictionary domain spec via := by
    intro s h
    refine h.append (addDictionary_rests domain spec via s h.sound).1 fun x hx => ?_
    cases hx
  new domain spec via := by
    unfold newExtension
    refine Keeps.bind (datasetSteps_recorded.lookupSteps.findBase via _ _) fun found => ?_
    exact fun _ h => h.addExtension domain spec via found
  extend domain base spec := by
    unfold extendDictionary
    refine Keeps.bind (datasetSteps_recorded.lookupSteps.checkBase _ base) fun found => ?_
    exact fun _ h => h.addExtension domain spec .default found
  late id := fun _ h => h.baseDictionary id

/-! ### One call for the base -/

theorem baseDictionary_resolved {base : Descriptor} (hx : s.extension? id = some x)
    (hb : x.base = some base) : baseDictionary id s = (.ok base, s) := by
  rw [baseDictionary_eq, hx]
  dsimp only
  rw [hb]

/-- An answer is what the extension has from then on; a failure changes nothing else. -/
theorem Recorded.baseDictionary_answers (h : s.Recorded) (hx : s.extension? id = some x) :
    ∃ y, (Store.baseDictionary id s).2.extension? id = some y ∧
      x.Answers y (Store.baseDictionary id s).1 := by
  cases hb : x.base with
  | some base =>
    rw [baseDictionary_resolved hx hb]
    refine ⟨x, hx, ⟨fun e he => (by cases he), fun base' hbase => ?_⟩⟩
    cases hbase
    refine ⟨hb, (h.extensions hx).mp ?_⟩
    rw [Extension.isResolved, hb]
    rfl
  | none =>
    obtain ⟨y, hy, hyb, hrest, heq⟩ := baseDictionary_pending h.sound hx hb
    rw [heq]
    dsimp only
    generalize findBase x.via x.baseKey x.descriptor.path s = found at hy
    obtain ⟨answer, s'⟩ := found
    have hlt : id < s'.datasets.length := (List.getElem?_eq_some_iff.mp hy).1
    refine ⟨y.resolved answer, extension?_eq_some.mpr (List.getElem?_set_self hlt), ?_⟩
    cases answer with
    | error e =>
      refine ⟨fun e' he => ?_, fun base hbase => (by cases hbase)⟩
      cases he
      exact ⟨hb, hyb, rfl, hrest.fields⟩
    | ok base =>
      refine ⟨fun e he => (by cases he), fun base' hbase => ?_⟩
      cases hbase
      exact ⟨rfl, rfl⟩

end Store

/-! ### The main statement -/

/-- What is known of the extension `x` at one moment `s` and ever after, at `t` as well. -/
structure Store.FindsOnce {σ : Type} [Outside σ] (s t : Store σ) (id : Nat) (x : Extension) :
    Prop where
  recorded : x.isResolved = true ↔ x.failure = none
  call : ∃ y, (baseDictionary id s).2.extension? id = some y ∧ x.Continues y ∧
    x.Answers y (baseDictionary id s).1
  later : ∃ y, t.extension? id = some y ∧ x.Continues y
  known : ∀ base, x.base = some base → baseDictionary id t = (.ok base, t)

theorem Store.Moves.continues {σ : Type} {s t : Store σ} (h : Moves StoredDataset.Continues s t)
    (hs : s.Sound) {id : Nat} {x : Extension} (hx : s.extension? id = some x) :
    ∃ y, t.extension? id = some y ∧ x.Continues y := by
  obtain ⟨d, hd, hq⟩ := (h hs).2 id _ (extension?_eq_some.mp hx)
  obtain ⟨y, rfl, hy⟩ := hq x rfl
  exact ⟨y, extension?_eq_some.mpr hd, hy⟩

/-- Whatever happens, an extension finds its base at most once. -/
theorem base_found_once {σ : Type} [Outside σ] (outside : σ) (calls later : List (SceneCall σ))
    (s t : Scene σ) (hs : s = after Scene.step calls (Scene.start outside))
    (ht : t = after Scene.step later s) (id : Nat) (x : Extension)
    (hx : s.world.store.extension? id = some x) :
    s.world.store.FindsOnce t.world.store id x := by
  have hstart : (Scene.start outside).world.store.Recorded :=
    ⟨(Scene.start_sound outside).store, fun hx => by cases hx⟩
  have hrecorded : s.world.store.Recorded := by
    rw [hs]
    exact Scene.after_over Store.historySteps_recorded calls _ hstart
  have hlater : Store.Moves StoredDataset.Continues s.world.store t.world.store := by
    rw [ht]
    exact Scene.after_over Store.historySteps_continue later s
  obtain ⟨y, hy, hxy⟩ := hlater.continues hrecorded.sound hx
  obtain ⟨z, hz, hanswers⟩ := hrecorded.baseDictionary_answers hx
  obtain ⟨z', hz', hxz⟩ :=
    (Store.baseDictionary_continues id s.world.store).continues hrecorded.sound hx
  rw [hz] at hz'
  cases hz'
  refine ⟨hrecorded.extensions hx, ⟨z, hz, hxz, hanswers⟩, ⟨y, hy, hxy⟩, fun base hb => ?_⟩
  exact Store.baseDictionary_resolved hy (hxy.base hb)

namespace LateBase

theorem unresolved_there : ((after Scene.step unresolved
    (Scene.start emptyTable)).world.store.extension? 1).isSome = true := by
  decide +kernel

end LateBase

open LateBase in
theorem late_contacts_found_once :
    ∃ x, (after Scene.step unresolved (Scene.start emptyTable)).world.store.extension? 1 = some x ∧
      x.base = none ∧
      (after Scene.step unresolved (Scene.start emptyTable)).world.store.FindsOnce
        (after Scene.step resolved
          (after Scene.step unresolved (Scene.start emptyTable))).world.store 1 x ∧
      ((after Scene.step resolved (after Scene.step unresolved
        (Scene.start emptyTable))).world.store.extension? 1).bind (·.base) = some contacts := by
  have hx := (Option.some_get unresolved_there).symm
  refine ⟨_, hx, ?_, base_found_once emptyTable unresolved resolved _ _ rfl rfl 1 _ hx, ?_⟩
  · decide +kernel
  · decide +kernel

end TenantSchema
