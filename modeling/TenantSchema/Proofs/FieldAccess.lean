import TenantSchema.Proofs.FieldsRetained
import TenantSchema.Proofs.WriteLog

/-!
# Fields by name

A name belongs to the position at which a field list first comes upon it. That is the first
definition of the name, unless a later one has been asked for by its position before. So what was
asked before matters only where several definitions share a name.
-/

namespace TenantSchema

theorem findSome?_cons_or {α β : Type} (g : α → Option β) (a : α) (l : List α) :
    (a :: l).findSome? g = (g a).or (l.findSome? g) := by
  rw [List.findSome?_cons]
  cases g a <;> rfl

namespace Fields

variable {fs fs' : Fields} {f : Field} {i : Nat} {key : String}

/-! ### Calls -/

/-- A call that reads a field list. -/
inductive Access where
  | get (i : Nat)
  | toList
  | byName (name : String)
  | contains (name : String)
  | owns (f : Field)

/-- Answers with the fields that the call hands out. -/
def access : Access → StateM Fields (List Field)
  | .get i => (·.toList) <$> get i
  | .toList => toList
  | .byName name => (·.toList) <$> byName name
  | .contains name => (fun _ => []) <$> contains name
  | .owns f => (fun _ => []) <$> owns f

/-- A call keeps what looking fields up keeps. -/
theorem Lookups.access {R : Fields → Fields → Prop} [IsPreorder Fields R] (h : Lookups R)
    (a : Access) : Keeps R (access a) := by
  cases a with
  | get i => exact Keeps.map _ (h.get i)
  | toList => exact h.toList
  | byName name => exact Keeps.map _ (h.byName name)
  | contains name => exact Keeps.map _ (Keeps.map _ (h.byName name))
  | owns f => exact Keeps.map _ (h.owns f)

/-! ### Where names are met -/

/-- The position, if its definition has the lower-case name. -/
def namedAt (fs : Fields) (key : String) (i : Nat) : Option Nat :=
  if (fs.specs[i]?).any (Text.lower ·.id = key) then some i else none

/-- The position at which a call comes upon a lower-case name first. -/
def meets (fs : Fields) (key : String) : Access → Option Nat
  | .get i => fs.namedAt key i
  | .toList => fs.position? key
  | .byName name => if Text.lower name = key then fs.position? key else none
  | .contains name => if Text.lower name = key then fs.position? key else none
  | .owns f => if f.owner ≠ fs.owner || f.num = 0 then none else fs.namedAt key (f.num - 1)

theorem Agrees.length (h : fs.Agrees fs') : fs'.length = fs.length := congrArg List.length h.specs

theorem Agrees.namedAt (h : fs.Agrees fs') (key : String) : fs'.namedAt key = fs.namedAt key := by
  unfold Fields.namedAt
  rw [h.specs]

theorem Agrees.position? (h : fs.Agrees fs') : fs'.position? = fs.position? := by
  funext key
  unfold Fields.position?
  rw [h.specs]

theorem Agrees.meets (h : fs.Agrees fs') (key : String) : fs'.meets key = fs.meets key := by
  funext a
  cases a <;> simp only [Fields.meets, h.position?, h.namedAt, h.owner]

theorem namedAt_eq_some {j : Nat} :
    fs.namedAt key i = some j ↔ i = j ∧ ∃ f, fs.fieldAt? i = some f ∧ Text.lower f.name = key := by
  unfold namedAt fieldAt?
  cases fs.specs[i]? with
  | none => simp
  | some spec =>
    have hname : (fs.derive i spec).name = spec.id := rfl
    by_cases h : Text.lower spec.id = key <;> simp [h, hname]

theorem meets_byName (name : String) : fs.meets key (.byName name) =
    if Text.lower name = key then fs.position? key else none := rfl

/-- The first position of a name has that name and no other. -/
theorem namedAt_of_position? {name : String} (h : fs.position? (Text.lower name) = some i)
    (key : String) : fs.namedAt key i = fs.meets key (.byName name) := by
  obtain ⟨f, hf, hname⟩ := position?_eq_some h
  rw [meets_byName]
  split
  · next hkey =>
    rw [← hkey, h]
    exact namedAt_eq_some.mpr ⟨rfl, f, hf, hname⟩
  · next hkey =>
    refine Option.eq_none_iff_forall_ne_some.mpr fun j hj => hkey ?_
    obtain ⟨-, g, hg, hgk⟩ := namedAt_eq_some.mp hj
    rw [hf] at hg
    cases hg
    exact hname.symm.trans hgk

/-- The positions in order come upon a name at its first definition. -/
theorem findSome?_namedAt (fs : Fields) (key : String) :
    (List.range fs.length).findSome? (fs.namedAt key) = fs.position? key := by
  unfold position? length
  have hat : fs.namedAt key = fun i => if (fs.specs[i]?).any (Text.lower ·.id = key) then some i
    else none := rfl
  rw [hat]
  generalize fs.specs = specs
  induction specs with
  | nil => rfl
  | cons spec specs ih =>
    rw [List.length_cons, List.range_succ_eq_map, List.findSome?_cons, List.findSome?_map,
      List.findIdx?_cons]
    by_cases h : Text.lower spec.id = key
    · simp [h]
    · have hshift : (fun i => if (specs[i]?).any (Text.lower ·.id = key) then some (i + 1)
          else none) = fun i => (if (specs[i]?).any (Text.lower ·.id = key) then some i
            else none).map (· + 1) := by
        funext i
        split <;> rfl
      simp [h, Function.comp_def, hshift, ← ih]

/-- The index tells where every name was met, and what was derived is kept. -/
structure Indexes (fs : Fields) (met : String → Option Nat) : Prop where
  index : ∀ key, fs.index.get? key = met key
  kept : ∀ key i, met key = some i → ∃ f, fs.fresh? i = some f ∧ Text.lower f.name = key
  derived : ∀ (i : Nat) (f : Field), (fs.slots[i]?).join = some f →
    f.version = fs.version ∧ met (Text.lower f.name) ≠ none
  size : fs.Sized

theorem ofSpecs_indexes (owner : Nat) (specs : List FieldSpec) (keys : FieldKeys)
    (context : TypeContext) : (ofSpecs owner specs keys context).Indexes fun _ => none where
  index _ := rfl
  kept _ _ h := by cases h
  derived i f h := by
    have hn : ((List.replicate specs.length (none : Option Field))[i]?).join = none := by
      rw [List.getElem?_replicate]
      split <;> rfl
    exact absurd (hn.symm.trans h) (by simp)
  size := ofSpecs_sized ..

/-- Where nothing was derived, nothing is forgotten. -/
theorem index_keep (h : (fs.slots[i]?).join = none) (f : Field) :
    ((fs.dropStale i).keep i f).index = fs.index.insertNew (Text.lower f.name) i := by
  unfold dropStale
  rw [h]
  rfl

section Steps

variable {met : String → Option Nat} (h : fs.Indexes met) (hc : fs.Coherent)

include h

/-- Without an older version, a position either has its field or has none. -/
theorem Indexes.join_eq_none (hf : fs.fresh? i = none) : (fs.slots[i]?).join = none := by
  cases hj : (fs.slots[i]?).join with
  | none => rfl
  | some g =>
    have hg : fs.fresh? i = some g := fresh?_eq_some.mpr ⟨hj, (h.derived i g hj).1⟩
    exact absurd (hf.symm.trans hg) (by simp)

theorem Indexes.keep (hi : i < fs.length) (hf : fs.fresh? i = none) (hv : f.version = fs.version) :
    ((fs.dropStale i).keep i f).Indexes fun key =>
      (met key).or (if key = Text.lower f.name then some i else none) := by
  have hnone := h.join_eq_none hf
  have hfresh := h.size.fresh?_keep hi hv
  constructor
  · intro key
    rw [index_keep hnone, NameIndex.get?_insertNew, h.index]
  · intro key j hj
    rw [hfresh]
    cases hm : met key with
    | some k =>
      rw [hm, Option.some_or] at hj
      cases hj
      obtain ⟨g, hg, hname⟩ := h.kept key j hm
      have hji : j ≠ i := by
        rintro rfl
        exact absurd (hf.symm.trans hg) (by simp)
      rw [if_neg hji]
      exact ⟨g, hg, hname⟩
    | none =>
      rw [hm, Option.none_or] at hj
      split at hj
      · next hkey =>
        cases hj
        exact ⟨f, if_pos rfl, hkey.symm⟩
      · cases hj
  · intro j g hg
    rw [version_keep]
    rw [slots_keep, List.getElem?_set] at hg
    by_cases hij : i = j
    · rw [if_pos hij] at hg
      split at hg
      · cases hg
        exact ⟨hv, by simp⟩
      · cases hg
    · rw [if_neg hij] at hg
      obtain ⟨hgv, hgm⟩ := h.derived j g hg
      exact ⟨hgv, by simp [hgm]⟩
  · exact h.size.keep i f

/-- Only the answers of the index matter. -/
theorem Indexes.setIndex {ix : NameIndex} (hix : ∀ key, ix.get? key = fs.index.get? key) :
    { fs with index := ix }.Indexes met :=
  ⟨fun key => (hix key).trans (h.index key), h.kept, h.derived, h.size⟩

include hc

theorem Indexes.get (i : Nat) :
    (Fields.get i fs).2.Indexes fun key => (met key).or (fs.namedAt key i) := by
  cases hs : fs.specs[i]? with
  | none =>
    have hno : ∀ key, fs.namedAt key i = none := fun key => by simp [namedAt, hs]
    rw [get_of_none hs]
    simpa only [hno, Option.or_none] using h
  | some spec =>
    have hname : ∀ key, fs.namedAt key i = if key = Text.lower spec.id then some i else none := by
      intro key
      simp [namedAt, hs, eq_comm]
    simp only [get_of_some hs, hname]
    unfold Fields.obtain
    cases hf : fs.fresh? i with
    | some f =>
      -- the field is there already, so its name has been met
      have hspec : f.spec = spec := by
        obtain ⟨-, -, -, hfs⟩ := fieldAt?_spec (hc.fresh? hf)
        exact Option.some.inj (hfs.symm.trans hs)
      have hmet : met (Text.lower spec.id) ≠ none := by
        rw [← hspec]
        exact (h.derived i f (fresh?_eq_some.mp hf).1).2
      have hsame : (fun key => (met key).or (if key = Text.lower spec.id then some i else none)) =
          met := by
        funext key
        split
        · next hkey =>
          subst hkey
          obtain ⟨j, hj⟩ := Option.ne_none_iff_exists'.mp hmet
          rw [hj, Option.some_or]
        · exact Option.or_none
      dsimp only
      rw [hsame]
      exact h
    | none => exact h.keep (List.getElem?_eq_some_iff.mp hs).1 hf rfl

/-- A name is answered at the position where it was met, else at its first definition. -/
theorem Indexes.byName (name : String) :
    (Fields.byName name fs).1 =
        ((met (Text.lower name)).or (fs.position? (Text.lower name))).bind fs.fieldAt? ∧
      (Fields.byName name fs).2.Indexes fun key => (met key).or (fs.meets key (.byName name)) := by
  rw [byName_eq]
  cases hm : met (Text.lower name) with
  | some i =>
    obtain ⟨f, hf, hname⟩ := h.kept _ i hm
    have hix : fs.indexed? (Text.lower name) = some f := by
      simp [indexed?, h.index, hm, hf, hname]
    have hsame : (fun key => (met key).or (fs.meets key (.byName name))) = met := by
      funext key
      rw [meets_byName]
      split
      · next hkey => rw [← hkey, hm, Option.some_or]
      · exact Option.or_none
    rw [hix, hsame]
    exact ⟨(hc.fresh? hf).symm, h⟩
  | none =>
    have hix : fs.indexed? (Text.lower name) = none := by
      simp [indexed?, h.index, hm]
    rw [hix, Option.none_or]
    cases hp : fs.position? (Text.lower name) with
    | some i =>
      obtain ⟨hg, -, -⟩ := hc.get i
      have hi := h.get hc i
      simp only [namedAt_of_position? hp] at hi
      refine ⟨hg, hi.setIndex fun key => ?_⟩
      rw [NameIndex.get?_insert, hi.index]
      split
      · next hkey => rw [hkey, hm, meets_byName, if_pos rfl, hp, Option.none_or]
      · rfl
    | none =>
      have hmeets : ∀ key, fs.meets key (.byName name) = none := by
        intro key
        rw [meets_byName]
        split
        · next hkey => rw [← hkey, hp]
        · rfl
      refine ⟨rfl, ?_⟩
      simp only [hmeets, Option.or_none]
      refine h.setIndex fun key => ?_
      rw [NameIndex.get?_erase, h.index]
      split
      · next hkey => rw [hkey, hm]
      · rfl

theorem Indexes.getFrom {count i : Nat} (hlen : i + count ≤ fs.length) :
    (Fields.getFrom count i fs).2.Indexes fun key =>
      (met key).or ((List.range' i count).findSome? (fs.namedAt key)) := by
  induction count generalizing fs met i with
  | zero =>
    simp only [List.range'_zero, List.findSome?_nil, Option.or_none]
    exact h
  | succ count ih =>
    obtain ⟨f, hf⟩ := fieldAt?_of_lt (show i < fs.length by omega)
    obtain ⟨hg, hc', ha⟩ := hc.get i
    have hi := ih (i := i + 1) (h.get hc i) hc' (by rw [ha.length]; omega)
    rw [getFrom_succ, hg, hf]
    simpa only [ha.namedAt, List.range'_succ, findSome?_cons_or, Option.or_assoc] using hi

theorem Indexes.access (a : Access) :
    (Fields.access a fs).2.Indexes fun key => (met key).or (fs.meets key a) := by
  cases a with
  | get i => exact h.get hc i
  | toList =>
    have hall := h.getFrom hc (Nat.le_of_eq (Nat.zero_add fs.length))
    rw [← List.range_eq_range'] at hall
    simp only [findSome?_namedAt] at hall
    exact hall
  | byName name => exact (h.byName hc name).2
  | contains name => exact (h.byName hc name).2
  | owns f =>
    show (Fields.owns f fs).2.Indexes _
    rw [owns_eq]
    by_cases hf : (f.owner ≠ fs.owner || f.num = 0) = true
    · simpa only [meets, hf, if_true, Option.or_none] using h
    · simpa only [meets, hf, Bool.false_eq_true, if_false] using h.get hc (f.num - 1)

/-- After some calls a name is where the first of them met it. -/
theorem Indexes.after (calls : List Access) :
    (TenantSchema.after Fields.access calls fs).Indexes fun key =>
      (met key).or (calls.findSome? (fs.meets key)) := by
  induction calls generalizing fs met with
  | nil =>
    simp only [List.findSome?_nil, Option.or_none]
    exact h
  | cons a rest ih =>
    obtain ⟨hc', ha⟩ := lookups_derive.access a fs hc
    have hrest := ih (h.access hc a) hc'
    simpa only [after_cons, ha.meets, findSome?_cons_or, Option.or_assoc] using hrest

end Steps

/-! ### The main statement -/

/-- What a list answers to a name that it has met at some position, or not at all. -/
structure AnswersName (fs : Fields) (name : String) (met : Option Nat) (answer : Option Field) :
    Prop where
  /-- The field where the name was met, else that of its first definition. -/
  field : answer = (met.or (fs.position? (Text.lower name))).bind fs.fieldAt?
  none_iff : answer = none ↔ ∀ spec ∈ fs.specs, Text.lower spec.id ≠ Text.lower name
  first_iff : answer = (fs.position? (Text.lower name)).bind fs.fieldAt? ↔
    ∀ i, met = some i → fs.position? (Text.lower name) = some i
  /-- With distinct names there is nothing to choose from. -/
  distinct : fs.Distinct → answer = (fs.position? (Text.lower name)).bind fs.fieldAt?

theorem fieldAt?_inj {j : Nat} (hi : fs.fieldAt? i = some f) (hj : fs.fieldAt? j = some f) :
    i = j :=
  (same_iff_num hi hj).mp (Field.same_self f)

/-- A call meets a name at a definition of that name. -/
theorem meets_eq_some {a : Access} (h : fs.meets key a = some i) :
    ∃ f, fs.fieldAt? i = some f ∧ Text.lower f.name = key := by
  have hposition (h : fs.position? key = some i) :
      ∃ f, fs.fieldAt? i = some f ∧ Text.lower f.name = key := by
    rw [← findSome?_namedAt] at h
    obtain ⟨j, -, hj⟩ := List.exists_of_findSome?_eq_some h
    obtain ⟨rfl, hf⟩ := namedAt_eq_some.mp hj
    exact hf
  have hnamed {j : Nat} (h : fs.namedAt key j = some i) :
      ∃ f, fs.fieldAt? i = some f ∧ Text.lower f.name = key := by
    obtain ⟨rfl, hf⟩ := namedAt_eq_some.mp h
    exact hf
  cases a with
  | get j => exact hnamed h
  | toList => exact hposition h
  | byName name =>
    exact hposition (Option.ite_none_right_eq_some.mp h).2
  | contains name =>
    exact hposition (Option.ite_none_right_eq_some.mp h).2
  | owns f =>
    exact hnamed (Option.ite_none_left_eq_some.mp h).2

theorem position?_eq_none_iff {name : String} : fs.position? (Text.lower name) = none ↔
    ∀ spec ∈ fs.specs, Text.lower spec.id ≠ Text.lower name := by
  simp [position?, List.findIdx?_eq_none_iff]

theorem answersName {name : String} {met : Option Nat}
    (h : ∀ i, met = some i → ∃ f, fs.fieldAt? i = some f ∧ Named name f) :
    fs.AnswersName name met ((met.or (fs.position? (Text.lower name))).bind fs.fieldAt?) := by
  cases hp : fs.position? (Text.lower name) with
  | none =>
    have hm : met = none := by
      refine Option.eq_none_iff_forall_ne_some.mpr fun i hi => ?_
      obtain ⟨f, hf, hn⟩ := h i hi
      exact position?_eq_none hp i f hf hn
    subst hm
    refine ⟨by rw [hp], ⟨fun _ => position?_eq_none_iff.mp hp, fun _ => rfl⟩, ?_, ?_⟩
    · rw [hp]
      exact ⟨fun _ _ hi => (Option.some_ne_none _ hi.symm).elim, fun _ => rfl⟩
    · intro _
      rw [hp]
      rfl
  | some j =>
    obtain ⟨g, hg, hgn⟩ := position?_eq_some hp
    obtain ⟨i, hi⟩ : ∃ i, met.or (some j) = some i := by cases met <;> exact ⟨_, rfl⟩
    obtain ⟨f, hf, hn⟩ : ∃ f, fs.fieldAt? i = some f ∧ Named name f := by
      cases met with
      | none =>
        cases hi
        exact ⟨g, hg, hgn⟩
      | some k => exact h i hi
    rw [hi, Option.bind_some, hf]
    refine ⟨by rw [hp, hi, Option.bind_some, hf], ⟨fun hno => (by cases hno), fun hall => ?_⟩, ?_, ?_⟩
    · rw [position?_eq_none_iff.mpr hall] at hp
      cases hp
    · rw [hp, Option.bind_some, hg, Option.some.injEq]
      constructor
      · rintro rfl k rfl
        cases hi
        rw [fieldAt?_inj hf hg]
      · intro hall
        cases met with
        | none =>
          cases hi
          exact Option.some.inj (hf.symm.trans hg)
        | some k =>
          cases hi
          cases hall _ rfl
          exact Option.some.inj (hf.symm.trans hg)
    · intro hd
      rw [hp, Option.bind_some, hg, hd.eq_of_named hf hg (hn.trans hgn.symm)]

/-- Whatever has been asked of a list since it was made, a name is answered where the first call
that met it did, and at its first definition if none did. -/
theorem byName_after_access (owner : Nat) (specs : List FieldSpec) (keys : FieldKeys)
    (context : TypeContext) (calls : List Access) (name : String) :
    let fs := ofSpecs owner specs keys context
    fs.AnswersName name (calls.findSome? (fs.meets (Text.lower name)))
      (byName name (after access calls fs)).1 := by
  intro fs
  have hc := ofSpecs_coherent owner specs keys context
  have hix := (ofSpecs_indexes owner specs keys context).after hc calls
  obtain ⟨hc', ha⟩ := after_keeps lookups_derive.access calls fs hc
  have hanswer := (hix.byName hc' name).1
  rw [Option.none_or, ha.position?, funext ha.fieldAt?] at hanswer
  rw [hanswer]
  refine answersName fun i hi => ?_
  obtain ⟨a, -, ha⟩ := List.exists_of_findSome?_eq_some hi
  exact meets_eq_some ha

/-- The name belongs to both definitions. The second one has it once it was asked for by its
position, although the first one has it for whoever looks the name up. -/
theorem later_definition_answers :
    let fs := ofSpecs 0 [.ofKind "name" .bool, .ofKind "NAME" (.signed .int)] {} {}
    fs.position? (Text.lower "name") = some 0 ∧
      (byName "name" fs).1.map (·.num) = some 1 ∧
      (byName "name" (after access [.get 1] fs)).1.map (·.num) = some 2 := by
  decide +kernel

end Fields

end TenantSchema
