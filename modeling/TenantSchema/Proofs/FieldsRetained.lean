import TenantSchema.Proofs.Assoc
import TenantSchema.Proofs.FieldsCoherent

/-!
# What a field list retains

Looking fields up derives them, and what was derived stays: a position keeps its field until the
definitions are replaced, and the index keeps the field that it holds for a name. So whatever was
found under a name once is found there again, even where several definitions share the name.
-/

namespace TenantSchema

namespace NameIndex

variable (ix : NameIndex) (name key : String) (i : Nat)

theorem get?_erase :
    (ix.erase name).get? key = if key = name then none else ix.get? key := by
  by_cases h : key = name
  · rw [if_pos h, h]
    exact lookup_filter_ne_self ix name
  · rw [if_neg h]
    exact lookup_filter_ne h

theorem get?_insert :
    (ix.insert name i).get? key = if key = name then some i else ix.get? key :=
  lookup_put ix name key i

/-- A name that is there keeps its position. -/
theorem get?_insertNew :
    (ix.insertNew name i).get? key = (ix.get? key).or (if key = name then some i else none) := by
  unfold insertNew
  cases hn : ix.get? name with
  | some j =>
    by_cases h : key = name
    · simp [h, hn]
    · simp [h]
  | none =>
    show List.lookup key ((name, i) :: ix) = _
    by_cases h : key = name
    · subst h
      simp [hn]
    · have hne : (key == name) = false := beq_eq_false_iff_ne.mpr h
      rw [List.lookup_cons, hne, if_neg h, Option.or_none]
      rfl

variable {ix key}

/-- A name that stands for another position stays. -/
theorem get?_eraseAt {j : Nat} (h : ix.get? key = some j) (hj : j ≠ i) :
    (ix.eraseAt name i).get? key = some j := by
  unfold eraseAt
  split
  · next hname =>
    rw [get?_erase, if_neg]
    · exact h
    · rintro rfl
      exact hj (Option.some.inj (h.symm.trans hname))
  · exact h

end NameIndex

namespace Fields

variable {fs fs' fs'' : Fields} {f g : Field} {i : Nat} {key : String}

/-! ### Kept fields -/

/-- A step that forgets no field of the current version. -/
def Retains (fs fs' : Fields) : Prop :=
  fs.Sized → fs'.Sized ∧ fs'.version = fs.version ∧
    ∀ i f, fs.fresh? i = some f → fs'.fresh? i = some f

instance : IsPreorder Fields Retains where
  refl _ h := ⟨h, rfl, fun _ _ hf => hf⟩
  trans _ _ _ h h' hs := by
    obtain ⟨hs', hv, hf⟩ := h hs
    obtain ⟨hs'', hv', hf'⟩ := h' hs'
    exact ⟨hs'', hv'.trans hv, fun i f hi => hf' i f (hf i f hi)⟩

/-- Which index entries there are does not matter. -/
theorem retains_setIndex (ix : NameIndex) : fs.Retains { fs with index := ix } :=
  fun h => ⟨h, rfl, fun _ _ hf => hf⟩

/-- A field is derived only where there is none of the current version. -/
theorem retains_obtain {spec : FieldSpec} (hs : fs.specs[i]? = some spec) :
    fs.Retains (obtain i spec fs).2 := by
  unfold Fields.obtain
  cases hf : fs.fresh? i with
  | some f => exact Std.Refl.refl (r := Retains) fs
  | none =>
    have hi : i < fs.length := (List.getElem?_eq_some_iff.mp hs).1
    intro hsized
    refine ⟨hsized.keep i _, version_keep fs i _, fun j g hg => ?_⟩
    have hji : j ≠ i := by
      rintro rfl
      exact Option.some_ne_none g (hg.symm.trans hf)
    dsimp only
    rw [hsized.fresh?_keep hi rfl, if_neg hji]
    exact hg

theorem get_retains (i : Nat) : Keeps Retains (get i) := by
  intro fs
  cases hs : fs.specs[i]? with
  | none =>
    rw [get_of_none hs]
    exact Std.Refl.refl (r := Retains) fs
  | some spec =>
    rw [get_of_some hs]
    exact retains_obtain hs

theorem byName_retains (name : String) : Keeps Retains (byName name) := by
  intro fs
  rw [byName_eq]
  cases fs.indexed? (Text.lower name) with
  | some f => exact Std.Refl.refl (r := Retains) fs
  | none =>
    cases fs.position? (Text.lower name) with
    | some i => exact IsTrans.trans (r := Retains) _ _ _ (get_retains i fs) (retains_setIndex _)
    | none => exact retains_setIndex _

theorem lookups_retain : Lookups Retains where
  get := get_retains
  byName := byName_retains

/-- What is handed out at a position is kept there. -/
theorem Sized.fresh?_get (hs : fs.Sized) (hf : (Fields.get i fs).1 = some f) :
    (Fields.get i fs).2.fresh? i = some f := by
  cases hspec : fs.specs[i]? with
  | none =>
    rw [get_of_none hspec] at hf
    cases hf
  | some spec =>
    rw [get_of_some hspec] at hf ⊢
    cases hf
    have hi : i < fs.length := (List.getElem?_eq_some_iff.mp hspec).1
    dsimp only
    unfold Fields.obtain
    cases hfresh : fs.fresh? i with
    | some g => exact hfresh
    | none =>
      dsimp only
      rw [hs.fresh?_keep hi rfl, if_pos rfl]

/-! ### Indexed fields -/

theorem indexed?_eq_some : fs.indexed? key = some f ↔
    ∃ i, fs.index.get? key = some i ∧ fs.fresh? i = some f ∧ Text.lower f.name = key := by
  simp only [indexed?, Option.filter_eq_some_iff, Option.bind_eq_some_iff, decide_eq_true_eq,
    ← and_assoc, exists_and_right]

/-- A step that retains the field that the index holds for a name. -/
def Pins (fs fs' : Fields) : Prop :=
  fs.Sized → ∀ key f, fs.indexed? key = some f → fs'.indexed? key = some f

theorem pins_obtain {spec : FieldSpec} (hs : fs.specs[i]? = some spec) :
    fs.Pins (obtain i spec fs).2 := by
  intro hsized key g hg
  obtain ⟨j, hj, hfresh, hname⟩ := indexed?_eq_some.mp hg
  have hkept := (retains_obtain hs hsized).2.2 j g hfresh
  refine indexed?_eq_some.mpr ⟨j, ?_, hkept, hname⟩
  unfold Fields.obtain
  cases hf : fs.fresh? i with
  | some f => exact hj
  | none =>
    have hji : j ≠ i := by
      rintro rfl
      exact Option.some_ne_none g (hfresh.symm.trans hf)
    show ((fs.dropStale i).index.insertNew _ i).get? key = some j
    have hdropped : (fs.dropStale i).index.get? key = some j := by
      unfold dropStale
      cases (fs.slots[i]?).join with
      | none => exact hj
      | some stale => exact NameIndex.get?_eraseAt _ _ hj hji
    rw [NameIndex.get?_insertNew, hdropped, Option.some_or]

theorem get_pins (i : Nat) : Keeps Pins (get i) := by
  intro fs
  cases hs : fs.specs[i]? with
  | none =>
    rw [get_of_none hs]
    exact fun _ _ _ hf => hf
  | some spec =>
    rw [get_of_some hs]
    exact pins_obtain hs

/-- Only a name without a field is given a position, or none. -/
theorem byName_pins (name : String) : Keeps Pins (byName name) := by
  intro fs hsized key g hg
  rw [byName_eq]
  cases hix : fs.indexed? (Text.lower name) with
  | some f => exact hg
  | none =>
    have hkey : key ≠ Text.lower name := by
      rintro rfl
      exact Option.some_ne_none g (hg.symm.trans hix)
    -- the entry of another name stays
    have hother {fs' : Fields} {ix : NameIndex} (hg : fs'.indexed? key = some g)
        (hget : ix.get? key = fs'.index.get? key) :
        { fs' with index := ix }.indexed? key = some g := by
      obtain ⟨j, hj, hfresh, hname⟩ := indexed?_eq_some.mp hg
      exact indexed?_eq_some.mpr ⟨j, hget.trans hj, hfresh, hname⟩
    cases fs.position? (Text.lower name) with
    | some i =>
      refine hother (get_pins i fs hsized key g hg) ?_
      rw [NameIndex.get?_insert, if_neg hkey]
    | none =>
      refine hother hg ?_
      rw [NameIndex.get?_erase, if_neg hkey]

/-- What is found under a name is pinned there. -/
theorem Sized.indexed?_byName (hs : fs.Sized) (hc : fs.Coherent) {name : String}
    (hf : (Fields.byName name fs).1 = some f) :
    (Fields.byName name fs).2.indexed? (Text.lower name) = some f := by
  have hname : Text.lower f.name = Text.lower name := (hc.byName_some hf).2
  rw [byName_eq] at hf ⊢
  cases hix : fs.indexed? (Text.lower name) with
  | some g =>
    rw [hix] at hf
    cases hf
    exact hix
  | none =>
    rw [hix] at hf
    cases hp : fs.position? (Text.lower name) with
    | none =>
      rw [hp] at hf
      cases hf
    | some i =>
      rw [hp] at hf
      refine indexed?_eq_some.mpr ⟨i, ?_, hs.fresh?_get hf, hname⟩
      rw [NameIndex.get?_insert, if_pos rfl]

/-! ### Reading -/

/-- A step that derives fields and forgets nothing. -/
structure Reads (fs fs' : Fields) : Prop where
  derives : fs.Derives fs'
  retains : fs.Retains fs'
  pins : fs.Pins fs'

instance : IsPreorder Fields Reads where
  refl fs := ⟨Std.Refl.refl fs, Std.Refl.refl fs, fun _ _ _ hf => hf⟩
  trans _ _ _ h h' := by
    refine ⟨IsTrans.trans _ _ _ h.derives h'.derives, IsTrans.trans _ _ _ h.retains h'.retains, ?_⟩
    exact fun hs key f hf => h'.pins (h.retains hs).1 key f (h.pins hs key f hf)

theorem lookups_read : Lookups Reads where
  get i fs := ⟨get_derives i fs, get_retains i fs, get_pins i fs⟩
  byName name fs := ⟨byName_derives name fs, byName_retains name fs, byName_pins name fs⟩

/-! ### Fields of the list, now or earlier -/

/-- The list keeps the field for whoever asks next. -/
def Kept (fs : Fields) (f : Field) : Prop := ∃ i, fs.fresh? i = some f

theorem Kept.retained (h : fs.Kept f) (hr : fs.Retains fs') (hs : fs.Sized) : fs'.Kept f := by
  obtain ⟨i, hi⟩ := h
  exact ⟨i, (hr hs).2.2 i f hi⟩

theorem Sized.get_kept (hs : fs.Sized) (hf : (Fields.get i fs).1 = some f) :
    (Fields.get i fs).2.Kept f :=
  ⟨i, hs.fresh?_get hf⟩

theorem Sized.byName_kept (hs : fs.Sized) {name : String}
    (hf : (Fields.byName name fs).1 = some f) : (Fields.byName name fs).2.Kept f := by
  rw [byName_eq] at hf ⊢
  cases hix : fs.indexed? (Text.lower name) with
  | some g =>
    rw [hix] at hf
    cases hf
    obtain ⟨i, -, hi, -⟩ := indexed?_eq_some.mp hix
    exact ⟨i, hi⟩
  | none =>
    rw [hix] at hf
    cases hp : fs.position? (Text.lower name) with
    | some i =>
      rw [hp] at hf
      exact hs.get_kept hf
    | none =>
      rw [hp] at hf
      cases hf

/-- The field is kept by the list, or it was built for it at an earlier version. -/
structure CameFrom (fs : Fields) (f : Field) : Prop where
  owner : f.owner = fs.owner
  num : 1 ≤ f.num
  version : f.version ≤ fs.version
  fresh : f.version = fs.version → fs.fresh? (f.num - 1) = some f
  serial_lt : f.version ≠ fs.version → f.serial < fs.serialAt (f.num - 1)

theorem Coherent.cameFrom (hc : fs.Coherent) (hf : fs.Kept f) :
    fs.CameFrom f ∧ f.version = fs.version := by
  obtain ⟨i, hi⟩ := hf
  obtain ⟨ho, hv, hn, -⟩ := fieldAt?_spec (hc.fresh? hi)
  refine ⟨⟨ho, by omega, UInt32.le_of_eq hv, fun _ => ?_, fun hne => absurd hv hne⟩, hv⟩
  rw [hn]
  exact hi

theorem CameFrom.reads (hf : fs.CameFrom f) (hc : fs.Coherent) (hr : fs.Reads fs') :
    fs'.CameFrom f := by
  have ha := (hr.derives hc).2
  have hkeep := (hr.retains hc.sized).2.2
  refine ⟨hf.owner.trans ha.owner.symm, hf.num, ?_, fun hv => ?_, fun hv => ?_⟩
  · rw [ha.version]
    exact hf.version
  · exact hkeep _ f (hf.fresh (hv.trans ha.version))
  · rw [ha.serialAt]
    exact hf.serial_lt (ha.version ▸ hv)

/-- After new definitions every field is of an earlier version, and any field that is built from
then on is another one. -/
theorem CameFrom.reset (hf : fs.CameFrom f) (hc : fs.Coherent)
    (hv : fs.version < nextVersion fs.version) (specs : List FieldSpec) (keys : FieldKeys)
    (context : TypeContext) : (fs.reset specs keys context).CameFrom f := by
  have hlt : f.version < nextVersion fs.version := UInt32.lt_of_le_of_lt hf.version hv
  refine ⟨hf.owner, hf.num, UInt32.le_of_lt hlt, fun he => absurd he (UInt32.ne_of_lt hlt),
    fun _ => ?_⟩
  have hnone : (fs.reset specs keys context).fresh? (f.num - 1) = none := by
    rw [Option.eq_none_iff_forall_ne_some]
    intro g hg
    obtain ⟨hslot, hgv⟩ := fresh?_eq_some.mp hg
    have hle := hc.version_le _ g (slots_reset hslot)
    exact absurd hgv (UInt32.ne_of_lt (UInt32.lt_of_le_of_lt hle hv))
  rw [serialAt_of_none hnone]
  show f.serial < fs.built.count (f.num - 1)
  by_cases hcur : f.version = fs.version
  · exact hc.serial_lt _ f (fresh?_eq_some.mp (hf.fresh hcur)).1
  · exact Nat.lt_of_lt_of_le (hf.serial_lt hcur) (hc.serialAt_le _)

/-- The field at a position is no other than one that came from the list, or it was built later. -/
theorem CameFrom.same_fieldAt? (hf : fs.CameFrom f) (hg : fs.fieldAt? i = some g)
    (hsame : g.same f = true) : f.version = fs.version := by
  obtain ⟨-, hnum, hserial⟩ := Field.same_iff.mp hsame
  obtain ⟨-, -, hn, -⟩ := fieldAt?_spec hg
  by_contra hv
  have hlt := hf.serial_lt hv
  rw [← hserial, ← hnum, hn, Nat.add_sub_cancel, ← serial_of_fieldAt? hg] at hlt
  exact Nat.lt_irrefl _ hlt

/-- What is built is none of the fields that came from the list before. -/
theorem CameFrom.not_same_derive (hf : fs.CameFrom f) {spec : FieldSpec}
    (hs : fs.specs[i]? = some spec) (hfresh : fs.fresh? i = none) :
    (fs.derive i spec).same f = false := by
  by_contra hsame
  have hsame : (fs.derive i spec).same f = true := by simpa using hsame
  have hnum : i + 1 = f.num := (Field.same_iff.mp hsame).2.1
  have hv := hf.same_fieldAt? (fieldAt?_eq_some.mpr ⟨spec, hs, rfl⟩) hsame
  have hkept := hf.fresh hv
  rw [← hnum, Nat.add_sub_cancel, hfresh] at hkept
  cases hkept

/-- A list owns those of its fields that are of its version. -/
theorem CameFrom.owns_iff (hf : fs.CameFrom f) (hc : fs.Coherent) :
    (Fields.owns f fs).1 = true ↔ f.version = fs.version := by
  rw [(hc.owns f).1]
  constructor
  · rintro ⟨g, -, hg, hsame⟩
    exact hf.same_fieldAt? hg hsame
  · intro hv
    exact ⟨f, hf.num, hc.fresh? (hf.fresh hv), Field.same_self f⟩

/-- Fields of another owner are foreign. -/
theorem Coherent.owner_of_owns (hc : fs.Coherent) (h : (Fields.owns f fs).1 = true) :
    f.owner = fs.owner := by
  obtain ⟨g, -, hg, hsame⟩ := (hc.owns f).1.mp h
  rw [← (Field.same_iff.mp hsame).1]
  exact (fieldAt?_spec hg).1

/-! ### The primary field -/

/-- The list answers with this field when it is asked for its primary one. -/
structure PrimaryIs (fs : Fields) (f : Field) : Prop where
  named : fs.keys.primary.isEmpty = false
  pinned : fs.indexed? (Text.lower fs.keys.primary) = some f

theorem PrimaryIs.answer (h : fs.PrimaryIs f) : primaryField fs = (some f, fs) := by
  rw [primaryField_eq, h.named, if_neg Bool.false_ne_true, byName_eq, h.pinned]

/-- What a list has answered it answers from then on. -/
theorem Sized.primaryIs (hs : fs.Sized) (hc : fs.Coherent) (hf : (primaryField fs).1 = some f) :
    (primaryField fs).2.PrimaryIs f := by
  have hkeys := (lookups_derive.primaryField fs hc).2.keys
  cases hnamed : fs.keys.primary.isEmpty with
  | true =>
    rw [primaryField_eq, if_pos hnamed] at hf
    cases hf
  | false =>
    refine ⟨hkeys ▸ hnamed, ?_⟩
    rw [hkeys]
    rw [primaryField_eq, hnamed, if_neg Bool.false_ne_true] at hf ⊢
    exact hs.indexed?_byName hc hf

theorem PrimaryIs.later (h : fs.PrimaryIs f) (hs : fs.Sized) (hc : fs.Coherent)
    (hr : fs.Reads fs') : fs'.PrimaryIs f := by
  have hkeys := (hr.derives hc).2.keys
  refine ⟨hkeys ▸ h.named, ?_⟩
  rw [hkeys]
  exact hr.pins hs _ f h.pinned

end Fields

end TenantSchema
