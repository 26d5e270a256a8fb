import TenantSchema.Dataset.Fields
import TenantSchema.Proofs.Runs

/-!
# Coherent field lists

Fields are derived when they are first asked for, and what was derived from older definitions
lingers on. It makes no difference: a coherent list answers by the definitions in force, whatever
has been asked before.
-/

namespace TenantSchema.Fields

/-- The field at a position, by the definitions in force. -/
def fieldAt? (fs : Fields) (i : Nat) : Option Field := (fs.specs[i]?).map (fs.derive i)

/-- There is a slot for every definition. -/
def Sized (fs : Fields) : Prop := fs.slots.length = fs.length

/-- What is kept at a position is the field there, or it is of an older version; and it is one of
those that were built for the position. -/
structure Coherent (fs : Fields) : Prop where
  sized : fs.Sized
  version_le : ∀ (i : Nat) (f : Field), (fs.slots[i]?).join = some f → f.version ≤ fs.version
  current : ∀ (i : Nat) (f : Field), (fs.slots[i]?).join = some f → f.version = fs.version →
    fs.fieldAt? i = some f
  serial_lt : ∀ (i : Nat) (f : Field), (fs.slots[i]?).join = some f → f.serial < fs.built.count i

/-- The same definitions at the same version, whatever has been derived from them: the same fields
are there or will be built. -/
structure Agrees (fs fs' : Fields) : Prop where
  owner : fs'.owner = fs.owner
  version : fs'.version = fs.version
  specs : fs'.specs = fs.specs
  keys : fs'.keys = fs.keys
  context : fs'.context = fs.context
  serialAt : ∀ i, fs'.serialAt i = fs.serialAt i

/-- A step that only derives fields. -/
def Derives (fs fs' : Fields) : Prop := fs.Coherent → fs'.Coherent ∧ fs.Agrees fs'

variable {fs fs' fs'' : Fields}

@[refl] theorem Agrees.refl (fs : Fields) : fs.Agrees fs :=
  ⟨rfl, rfl, rfl, rfl, rfl, fun _ => rfl⟩

theorem Agrees.symm (h : fs.Agrees fs') : fs'.Agrees fs :=
  ⟨h.owner.symm, h.version.symm, h.specs.symm, h.keys.symm, h.context.symm,
    fun i => (h.serialAt i).symm⟩

theorem Agrees.trans (h : fs.Agrees fs') (h' : fs'.Agrees fs'') : fs.Agrees fs'' :=
  ⟨h'.owner.trans h.owner, h'.version.trans h.version, h'.specs.trans h.specs,
    h'.keys.trans h.keys, h'.context.trans h.context,
    fun i => (h'.serialAt i).trans (h.serialAt i)⟩

instance : IsPreorder Fields Derives where
  refl fs h := ⟨h, .refl fs⟩
  trans _ _ _ h h' hs := ⟨(h' (h hs).1).1, (h hs).2.trans (h' (h hs).1).2⟩

theorem Agrees.derive (h : fs.Agrees fs') (i : Nat) (spec : FieldSpec) :
    fs'.derive i spec = fs.derive i spec := by
  simp only [Fields.derive, h.owner, h.version, h.keys, h.context, h.serialAt]

theorem Agrees.fieldAt? (h : fs.Agrees fs') (i : Nat) : fs'.fieldAt? i = fs.fieldAt? i := by
  unfold Fields.fieldAt?
  rw [h.specs, funext (h.derive i)]

/-! ### The field at a position -/

section FieldAt

variable {i : Nat} {f : Field}

theorem fieldAt?_eq_some :
    fs.fieldAt? i = some f ↔ ∃ spec, fs.specs[i]? = some spec ∧ fs.derive i spec = f :=
  Option.map_eq_some_iff

theorem fieldAt?_spec (h : fs.fieldAt? i = some f) :
    f.owner = fs.owner ∧ f.version = fs.version ∧ f.num = i + 1 ∧ fs.specs[i]? = some f.spec := by
  obtain ⟨spec, hs, rfl⟩ := fieldAt?_eq_some.mp h
  exact ⟨rfl, rfl, rfl, hs⟩

theorem serial_of_fieldAt? (h : fs.fieldAt? i = some f) : f.serial = fs.serialAt i := by
  obtain ⟨spec, -, rfl⟩ := fieldAt?_eq_some.mp h
  rfl

theorem lt_of_fieldAt? (h : fs.fieldAt? i = some f) : i < fs.length := by
  obtain ⟨-, -, -, hs⟩ := fieldAt?_spec h
  exact (List.getElem?_eq_some_iff.mp hs).1

theorem fieldAt?_of_lt (h : i < fs.length) : ∃ f, fs.fieldAt? i = some f := by
  have hs : fs.specs[i]? = some fs.specs[i] := List.getElem?_eq_getElem h
  exact ⟨_, fieldAt?_eq_some.mpr ⟨_, hs, rfl⟩⟩

end FieldAt

/-! ### Coherence -/

theorem fresh?_eq_some {i : Nat} {f : Field} :
    fs.fresh? i = some f ↔ (fs.slots[i]?).join = some f ∧ f.version = fs.version := by
  simp [fresh?, Option.filter_eq_some_iff]

theorem serialAt_of_fresh {i : Nat} {f : Field} (h : fs.fresh? i = some f) :
    fs.serialAt i = f.serial := by
  unfold serialAt
  rw [h]

theorem serialAt_of_none {i : Nat} (h : fs.fresh? i = none) :
    fs.serialAt i = fs.built.count i := by
  unfold serialAt
  rw [h]

/-- No serial number is beyond the number of fields built. -/
theorem Coherent.serialAt_le (h : fs.Coherent) (i : Nat) : fs.serialAt i ≤ fs.built.count i := by
  cases hf : fs.fresh? i with
  | some f =>
    rw [serialAt_of_fresh hf]
    exact Nat.le_of_lt (h.serial_lt i f (fresh?_eq_some.mp hf).1)
  | none => exact Nat.le_of_eq (serialAt_of_none hf)

theorem ofSpecs_sized (owner : Nat) (specs : List FieldSpec) (keys : FieldKeys)
    (context : TypeContext) : (ofSpecs owner specs keys context).Sized :=
  List.length_replicate

theorem ofSpecs_coherent (owner : Nat) (specs : List FieldSpec) (keys : FieldKeys)
    (context : TypeContext) : (ofSpecs owner specs keys context).Coherent := by
  have hnone (i : Nat) (f : Field) :
      (((ofSpecs owner specs keys context).slots[i]?).join = some f) → False := by
    intro h
    have hn : ((List.replicate specs.length (none : Option Field))[i]?).join = none := by
      rw [List.getElem?_replicate]
      split <;> rfl
    exact absurd (hn.symm.trans h) (by simp)
  exact ⟨ofSpecs_sized owner specs keys context, fun i f h => (hnone i f h).elim,
    fun i f h => (hnone i f h).elim, fun i f h => (hnone i f h).elim⟩

/-- Definitions, keys and what has been built are all that matters. -/
theorem Coherent.congr (h : fs.Coherent) (ha : fs.Agrees fs') (hs : fs'.slots = fs.slots)
    (hb : fs'.built = fs.built) : fs'.Coherent := by
  refine ⟨?_, fun i f hf => ?_, fun i f hf hv => ?_, fun i f hf => ?_⟩
  · unfold Sized length
    rw [hs, ha.specs]
    exact h.sized
  · rw [hs] at hf
    rw [ha.version]
    exact h.version_le i f hf
  · rw [hs] at hf
    rw [ha.version] at hv
    rw [ha.fieldAt?]
    exact h.current i f hf hv
  · rw [hs] at hf
    rw [hb]
    exact h.serial_lt i f hf

/-- New definitions keep the slots in number. -/
theorem reset_sized (fs : Fields) (specs : List FieldSpec) (keys : FieldKeys)
    (context : TypeContext) : (fs.reset specs keys context).Sized := by
  show (fs.slots.take specs.length ++
    List.replicate (specs.length - fs.slots.length) none).length = specs.length
  rw [List.length_append, List.length_take, List.length_replicate]
  omega

/-- A field kept after new definitions was kept before. -/
theorem slots_reset {specs : List FieldSpec} {keys : FieldKeys} {context : TypeContext} {i : Nat}
    {f : Field} (hf : ((fs.reset specs keys context).slots[i]?).join = some f) :
    (fs.slots[i]?).join = some f := by
  change ((fs.slots.take specs.length ++
    List.replicate (specs.length - fs.slots.length) none)[i]?).join = some f at hf
  rw [List.getElem?_append] at hf
  split at hf
  · rw [List.getElem?_take] at hf
    split at hf
    · exact hf
    · exact absurd hf (by simp)
  · rw [List.getElem?_replicate] at hf
    split at hf <;> exact absurd hf (by simp)

/-- New definitions make everything derived so far an older version. -/
theorem Coherent.reset (h : fs.Coherent) (hv : fs.version < nextVersion fs.version)
    (specs : List FieldSpec) (keys : FieldKeys) (context : TypeContext) :
    (fs.reset specs keys context).Coherent := by
  have hlt {i : Nat} {f : Field}
      (hf : ((fs.reset specs keys context).slots[i]?).join = some f) :
      f.version < nextVersion fs.version :=
    UInt32.lt_of_le_of_lt (h.version_le i f (slots_reset hf)) hv
  exact ⟨reset_sized fs specs keys context, fun i f hf => UInt32.le_of_lt (hlt hf),
    fun i f hf he => absurd he (UInt32.ne_of_lt (hlt hf)),
    fun i f hf => h.serial_lt i f (slots_reset hf)⟩

theorem Coherent.fresh? (h : fs.Coherent) {i : Nat} {f : Field} (hf : fs.fresh? i = some f) :
    fs.fieldAt? i = some f := by
  obtain ⟨hs, hv⟩ := fresh?_eq_some.mp hf
  exact h.current i f hs hv

/-- A newly derived field replaces what was at its position. -/
theorem slots_keep (fs : Fields) (i : Nat) (f : Field) :
    ((fs.dropStale i).keep i f).slots = fs.slots.set i (some f) := by
  unfold dropStale keep
  cases (fs.slots[i]?).join with
  | none => rfl
  | some stale => simp only [List.set_set]

theorem version_keep (fs : Fields) (i : Nat) (f : Field) :
    ((fs.dropStale i).keep i f).version = fs.version := by
  unfold dropStale keep
  cases (fs.slots[i]?).join <;> rfl

theorem specs_keep (fs : Fields) (i : Nat) (f : Field) :
    ((fs.dropStale i).keep i f).specs = fs.specs := by
  unfold dropStale keep
  cases (fs.slots[i]?).join <;> rfl

theorem built_keep (fs : Fields) (i : Nat) (f : Field) :
    ((fs.dropStale i).keep i f).built = fs.built ++ [i] := by
  unfold dropStale keep
  cases (fs.slots[i]?).join <;> rfl

theorem Sized.keep (hs : fs.Sized) (i : Nat) (f : Field) :
    ((fs.dropStale i).keep i f).Sized := by
  unfold Sized
  rw [slots_keep, List.length_set, hs]
  exact congrArg List.length (specs_keep fs i f).symm

theorem Sized.fresh?_keep (hs : fs.Sized) {i : Nat} {f : Field} (hi : i < fs.length)
    (hv : f.version = fs.version) (j : Nat) :
    ((fs.dropStale i).keep i f).fresh? j = if j = i then some f else fs.fresh? j := by
  have hi : i < fs.slots.length := hs ▸ hi
  unfold fresh?
  rw [slots_keep, version_keep]
  by_cases hj : j = i
  · subst hj
    simp [hi, hv]
  · rw [if_neg hj, List.getElem?_set_ne (Ne.symm hj)]

/-- A field that is built and kept is the one that was still to be built. -/
theorem Sized.agrees_keep (hs : fs.Sized) {i : Nat} {spec : FieldSpec}
    (hspec : fs.specs[i]? = some spec) :
    fs.Agrees ((fs.dropStale i).keep i (fs.derive i spec)) := by
  have hi : i < fs.length := (List.getElem?_eq_some_iff.mp hspec).1
  have hserial (j : Nat) :
      ((fs.dropStale i).keep i (fs.derive i spec)).serialAt j = fs.serialAt j := by
    unfold Fields.serialAt
    rw [hs.fresh?_keep hi rfl, built_keep]
    by_cases hj : j = i
    · rw [if_pos hj, hj]
      rfl
    · rw [if_neg hj, List.count_append, List.count_singleton, if_neg (by simpa using Ne.symm hj),
        Nat.add_zero]
  unfold dropStale Fields.keep at hserial ⊢
  cases hold : (fs.slots[i]?).join with
  | none =>
    rw [hold] at hserial
    exact ⟨rfl, rfl, rfl, rfl, rfl, hserial⟩
  | some stale =>
    rw [hold] at hserial
    exact ⟨rfl, rfl, rfl, rfl, rfl, hserial⟩

/-- Nothing is built where there is a field already. -/
theorem Coherent.keep (h : fs.Coherent) {i : Nat} {spec : FieldSpec}
    (hspec : fs.specs[i]? = some spec) (hfresh : fs.fresh? i = none) :
    ((fs.dropStale i).keep i (fs.derive i spec)).Coherent := by
  have ha := h.sized.agrees_keep hspec
  have hkept {j : Nat} {g : Field}
      (hg : (((fs.dropStale i).keep i (fs.derive i spec)).slots[j]?).join = some g) :
      j = i ∧ g = fs.derive i spec ∨ j ≠ i ∧ (fs.slots[j]?).join = some g := by
    rw [slots_keep, List.getElem?_set] at hg
    by_cases hij : i = j
    · rw [if_pos hij] at hg
      split at hg
      · exact .inl ⟨hij.symm, (Option.some.inj hg).symm⟩
      · exact absurd hg (by simp)
    · rw [if_neg hij] at hg
      exact .inr ⟨Ne.symm hij, hg⟩
  refine ⟨h.sized.keep i _, fun j g hg => ?_, fun j g hg hv => ?_, fun j g hg => ?_⟩
  · rw [ha.version]
    rcases hkept hg with ⟨-, rfl⟩ | ⟨-, hg⟩
    · exact UInt32.le_refl _
    · exact h.version_le j g hg
  · rw [ha.fieldAt?]
    rcases hkept hg with ⟨rfl, rfl⟩ | ⟨-, hg⟩
    · exact fieldAt?_eq_some.mpr ⟨spec, hspec, rfl⟩
    · exact h.current j g hg (hv.trans ha.version)
  · rw [built_keep, List.count_append]
    rcases hkept hg with ⟨rfl, rfl⟩ | ⟨-, hg⟩
    · rw [List.count_singleton_self]
      exact Nat.lt_succ_of_le (Nat.le_of_eq (serialAt_of_none hfresh))
    · exact Nat.lt_add_right _ (h.serial_lt j g hg)

/-! ### Steps -/

theorem Coherent.obtain (h : fs.Coherent) {i : Nat} {spec : FieldSpec}
    (hs : fs.specs[i]? = some spec) :
    (obtain i spec fs).1 = fs.derive i spec ∧ (obtain i spec fs).2.Coherent ∧
      fs.Agrees (obtain i spec fs).2 := by
  have hf : fs.fieldAt? i = some (fs.derive i spec) := fieldAt?_eq_some.mpr ⟨spec, hs, rfl⟩
  unfold Fields.obtain
  cases hfresh : fs.fresh? i with
  | some f =>
    have hff : fs.fieldAt? i = some f := h.fresh? hfresh
    exact ⟨Option.some.inj (hff.symm.trans hf), h, .refl fs⟩
  | none => exact ⟨rfl, h.keep hs hfresh, h.sized.agrees_keep hs⟩

theorem get_of_none {i : Nat} (h : fs.specs[i]? = none) : get i fs = (none, fs) := by
  unfold Fields.get
  rw [get_bind_apply, h]
  rfl

theorem get_of_some {i : Nat} {spec : FieldSpec} (h : fs.specs[i]? = some spec) :
    get i fs = (some (Fields.obtain i spec fs).1, (Fields.obtain i spec fs).2) := by
  unfold Fields.get
  rw [get_bind_apply, h]
  rfl

/-- The answer is the field at the position, derived before or not. -/
theorem Coherent.get (h : fs.Coherent) (i : Nat) :
    (Fields.get i fs).1 = fs.fieldAt? i ∧ (Fields.get i fs).2.Coherent ∧
      fs.Agrees (Fields.get i fs).2 := by
  unfold fieldAt?
  cases hs : fs.specs[i]? with
  | none =>
    rw [get_of_none hs]
    exact ⟨rfl, h, .refl fs⟩
  | some spec =>
    obtain ⟨hv, hc, ha⟩ := h.obtain hs
    rw [get_of_some hs]
    exact ⟨congrArg some hv, hc, ha⟩

theorem get_derives (i : Nat) : Keeps Derives (get i) := fun _ h => (h.get i).2

/-- The field has the name, ignoring case. -/
def Named (name : String) (f : Field) : Prop := Text.lower f.name = Text.lower name

/-- Which index entries there are does not matter. -/
theorem Coherent.setIndex (h : fs.Coherent) (ix : NameIndex) :
    { fs with index := ix }.Coherent ∧ fs.Agrees { fs with index := ix } :=
  have ha : fs.Agrees { fs with index := ix } := ⟨rfl, rfl, rfl, rfl, rfl, fun _ => rfl⟩
  ⟨h.congr ha rfl rfl, ha⟩

theorem Coherent.indexed? (h : fs.Coherent) {key : String} {f : Field}
    (hf : fs.indexed? key = some f) :
    (∃ i, fs.fieldAt? i = some f) ∧ Text.lower f.name = key := by
  obtain ⟨hb, hk⟩ := Option.filter_eq_some_iff.mp hf
  obtain ⟨i, -, hi⟩ := Option.bind_eq_some_iff.mp hb
  exact ⟨⟨i, h.fresh? hi⟩, by simpa using hk⟩

/-- The answer to a name is a field that has it; no answer means that no field has it. -/
def Finds (fs : Fields) (name : String) : Option Field → Prop
  | some f => (∃ i, fs.fieldAt? i = some f) ∧ Named name f
  | none => ∀ i f, fs.fieldAt? i = some f → ¬ Named name f

theorem byName_eq (fs : Fields) (name : String) :
    byName name fs =
      match fs.indexed? (Text.lower name) with
      | some f => (some f, fs)
      | none =>
        match fs.position? (Text.lower name) with
        | some i =>
          let got := Fields.get i fs
          (got.1, { got.2 with index := got.2.index.insert (Text.lower name) i })
        | none => (none, { fs with index := fs.index.erase (Text.lower name) }) := by
  unfold Fields.byName
  dsimp only
  rw [get_bind_apply]
  cases fs.indexed? (Text.lower name) with
  | some f => rfl
  | none => cases fs.position? (Text.lower name) <;> rfl

/-- The position of a name has a field of the name. -/
theorem position?_eq_some {name : String} {i : Nat} (h : fs.position? (Text.lower name) = some i) :
    ∃ f, fs.fieldAt? i = some f ∧ Named name f := by
  obtain ⟨hi, hname, -⟩ := List.findIdx?_eq_some_iff_getElem.mp h
  obtain ⟨f, hf⟩ := fieldAt?_of_lt hi
  obtain ⟨-, -, -, hs⟩ := fieldAt?_spec hf
  have hsf : fs.specs[i] = f.spec := by simpa [List.getElem?_eq_getElem hi] using hs
  exact ⟨f, hf, by simpa [hsf, Named, Field.name] using hname⟩

theorem position?_eq_none {name : String} (h : fs.position? (Text.lower name) = none) :
    ∀ i f, fs.fieldAt? i = some f → ¬ Named name f := by
  intro i f hf hn
  obtain ⟨-, -, -, hs⟩ := fieldAt?_spec hf
  have hne := List.findIdx?_eq_none_iff.mp h f.spec (List.mem_of_getElem? hs)
  exact absurd hn (by simpa [Named, Field.name] using hne)

theorem Coherent.byName (h : fs.Coherent) (name : String) :
    fs.Finds name (Fields.byName name fs).1 ∧ (Fields.byName name fs).2.Coherent ∧
      fs.Agrees (Fields.byName name fs).2 := by
  rw [byName_eq]
  cases hix : fs.indexed? (Text.lower name) with
  | some f => exact ⟨h.indexed? hix, h, .refl fs⟩
  | none =>
    cases hp : fs.position? (Text.lower name) with
    | some i =>
      obtain ⟨hg, hc, ha⟩ := h.get i
      obtain ⟨f, hf, hn⟩ := position?_eq_some hp
      obtain ⟨hc', ha'⟩ := hc.setIndex ((Fields.get i fs).2.index.insert (Text.lower name) i)
      refine ⟨?_, hc', ha.trans ha'⟩
      dsimp only
      rw [hg, hf]
      exact ⟨⟨i, hf⟩, hn⟩
    | none => exact ⟨position?_eq_none hp, h.setIndex _⟩

theorem Coherent.byName_some (h : fs.Coherent) {name : String} {f : Field}
    (hf : (Fields.byName name fs).1 = some f) :
    (∃ i, fs.fieldAt? i = some f) ∧ Named name f := by
  have hfinds := (h.byName name).1
  rw [hf] at hfinds
  exact hfinds

/-- A name is missed only if no definition has it. -/
theorem Coherent.byName_eq_none (h : fs.Coherent) {name : String} :
    (Fields.byName name fs).1 = none ↔
      ∀ spec ∈ fs.specs, Text.lower spec.id ≠ Text.lower name := by
  constructor
  · intro hnone spec hspec hn
    have hfinds := (h.byName name).1
    rw [hnone] at hfinds
    obtain ⟨i, hi⟩ := List.mem_iff_getElem?.mp hspec
    have hat : fs.fieldAt? i = some (fs.derive i spec) := fieldAt?_eq_some.mpr ⟨spec, hi, rfl⟩
    have hno : ¬ Named name (fs.derive i spec) := hfinds i _ hat
    exact hno hn
  · intro hall
    refine Option.eq_none_iff_forall_ne_some.mpr fun f hf => ?_
    obtain ⟨⟨i, hi⟩, hn⟩ := h.byName_some hf
    obtain ⟨-, -, -, hs⟩ := fieldAt?_spec hi
    exact hall f.spec (List.mem_of_getElem? hs) hn

theorem byName_derives (name : String) : Keeps Derives (byName name) :=
  fun _ h => (h.byName name).2

theorem getFrom_succ (count i : Nat) (fs : Fields) :
    getFrom (count + 1) i fs =
      match (Fields.get i fs).1 with
      | some f =>
        let more := getFrom count (i + 1) (Fields.get i fs).2
        (f :: more.1, more.2)
      | none => ([], (Fields.get i fs).2) := by
  rw [Fields.getFrom, bind_apply]
  cases (Fields.get i fs).1 <;> rfl

/-- All fields, by the definitions in force. -/
def all (fs : Fields) : List Field := fs.specs.mapIdx fs.derive

theorem getElem?_all (fs : Fields) (i : Nat) : fs.all[i]? = fs.fieldAt? i := List.getElem?_mapIdx

theorem mem_all {f : Field} : f ∈ fs.all ↔ ∃ i, fs.fieldAt? i = some f := by
  simp only [List.mem_iff_getElem?, getElem?_all]

theorem map_spec_all (fs : Fields) : fs.all.map (·.spec) = fs.specs := by
  refine List.ext_getElem? fun i => ?_
  rw [List.getElem?_map, getElem?_all, fieldAt?, Option.map_map]
  exact Option.map_id'

theorem Agrees.all (h : fs.Agrees fs') : fs'.all = fs.all := by
  unfold Fields.all
  rw [h.specs, funext fun i => funext (h.derive i)]

theorem Coherent.getFrom (h : fs.Coherent) (count i : Nat) :
    (Fields.getFrom count i fs).1 = (fs.all.drop i).take count := by
  induction count generalizing fs i with
  | zero => rw [List.take_zero]; rfl
  | succ count ih =>
    obtain ⟨hg, hc, ha⟩ := h.get i
    rw [getFrom_succ, hg, ← getElem?_all]
    cases hi : fs.all[i]? with
    | none => simp [List.getElem?_eq_none_iff.mp hi]
    | some f =>
      obtain ⟨hlt, rfl⟩ := List.getElem?_eq_some_iff.mp hi
      have hrest := ih hc (i + 1)
      rw [ha.all] at hrest
      rw [List.drop_eq_getElem_cons hlt, List.take_succ_cons, ← hrest]

theorem Coherent.toList (h : fs.Coherent) : (Fields.toList fs).1 = fs.all := by
  show (Fields.getFrom fs.length 0 fs).1 = _
  rw [h.getFrom, List.drop_zero, List.take_of_length_le]
  exact Nat.le_of_eq List.length_mapIdx

theorem owns_eq (fs : Fields) (f : Field) :
    owns f fs =
      if f.owner ≠ fs.owner || f.num = 0 then (false, fs)
      else ((Fields.get (f.num - 1) fs).1.any (·.same f), (Fields.get (f.num - 1) fs).2) := by
  unfold Fields.owns
  rw [get_bind_apply]
  split
  · rfl
  · rw [bind_apply]
    cases (Fields.get (f.num - 1) fs).1 <;> rfl

/-- A field belongs to the list if it is one of the current version. -/
theorem Coherent.owns (h : fs.Coherent) (f : Field) :
    ((Fields.owns f fs).1 = true ↔
        ∃ g, 1 ≤ f.num ∧ fs.fieldAt? (f.num - 1) = some g ∧ g.same f = true) ∧
      (Fields.owns f fs).2.Coherent ∧ fs.Agrees (Fields.owns f fs).2 := by
  rw [owns_eq]
  split
  · next hf =>
    refine ⟨?_, h, .refl fs⟩
    constructor
    · exact fun hn => by cases hn
    · rintro ⟨g, hnum, hg, hsame⟩
      obtain ⟨ho, -, -⟩ := Field.same_iff.mp hsame
      obtain ⟨hgo, -, -, -⟩ := fieldAt?_spec hg
      have : f.num ≠ 0 := by omega
      simp [← ho, hgo, this] at hf
  · next hf =>
    obtain ⟨hg, hc, ha⟩ := h.get (f.num - 1)
    refine ⟨?_, hc, ha⟩
    have hnum : 1 ≤ f.num := by
      simp only [Bool.or_eq_true, decide_eq_true_eq, not_or] at hf
      omega
    dsimp only
    rw [hg, Option.any_eq_true]
    constructor
    · rintro ⟨g, hgs, hsame⟩
      exact ⟨g, hnum, hgs, hsame⟩
    · rintro ⟨g, -, hgs, hsame⟩
      exact ⟨g, hgs, hsame⟩

theorem Coherent.owns_fieldAt? (h : fs.Coherent) {i : Nat} {f : Field}
    (hf : fs.fieldAt? i = some f) : (Fields.owns f fs).1 = true := by
  obtain ⟨-, -, hnum, -⟩ := fieldAt?_spec hf
  refine (h.owns f).1.mpr ⟨f, by omega, ?_, Field.same_self f⟩
  rw [hnum]
  exact hf

theorem primaryField_eq (fs : Fields) :
    primaryField fs =
      if fs.keys.primary.isEmpty then (none, fs) else byName fs.keys.primary fs := by
  unfold primaryField
  rw [get_bind_apply]
  split <;> rfl

theorem displayField_eq (fs : Fields) :
    displayField fs =
      if fs.keys.display.isEmpty then (none, fs) else byName (displayHead fs.keys.display) fs := by
  unfold displayField
  rw [get_bind_apply]
  split <;> rfl

/-! ### All ways to look fields up -/

/-- `R` is kept where a field is looked up by its position and where it is by its name. -/
structure Lookups (R : Fields → Fields → Prop) : Prop where
  get : ∀ i, Keeps R (get i)
  byName : ∀ name, Keeps R (byName name)

namespace Lookups

variable {R : Fields → Fields → Prop} [IsPreorder Fields R] (h : Lookups R)

include h

theorem getFrom (count i : Nat) : Keeps R (getFrom count i) := by
  induction count generalizing i with
  | zero => exact Keeps.pure _
  | succ count ih =>
    refine Keeps.bind (h.get i) fun f => ?_
    cases f with
    | none => exact Keeps.pure _
    | some f => exact Keeps.bind (ih (i + 1)) fun _ => Keeps.pure _

theorem toList : Keeps R toList := Keeps.bind Keeps.get fun _ => h.getFrom _ 0

theorem owns (f : Field) : Keeps R (owns f) := by
  intro fs
  rw [owns_eq]
  split
  · exact Std.Refl.refl (r := R) fs
  · exact h.get _ fs

theorem primaryField : Keeps R primaryField := by
  intro fs
  rw [primaryField_eq]
  split
  · exact Std.Refl.refl (r := R) fs
  · exact h.byName _ fs

theorem displayField : Keeps R displayField := by
  intro fs
  rw [displayField_eq]
  split
  · exact Std.Refl.refl (r := R) fs
  · exact h.byName _ fs

end Lookups

theorem lookups_derive : Lookups Derives where
  get := get_derives
  byName := byName_derives

end TenantSchema.Fields
