import TenantSchema.Proofs.KnownTargets
import TenantSchema.Proofs.LowerCase
import TenantSchema.Proofs.SceneSteps
import TenantSchema.Proofs.ValidDatasets

/-!
# The rules of datasets

A dataset is well-formed if it keeps a few rules: three for each of its fields, and one for each of
its keys. What validation reports is one issue for every rule that is broken, under the name of the
field or under the key of the dataset itself, where fields of that name have theirs as well. It reports
nothing, and has no answer at all, if the references of a field go on beyond the depth of the stack;
those of a dictionary that is known by itself do so on every stack.
-/

namespace TenantSchema

/-! ### Issues by key -/

namespace Issues

variable {m : Issues} {i : Issue} {issues : List Issue}

/-- The issues with a key, in order. -/
def under (m : Issues) (key : String) : List Issue := (List.lookup key m).getD []

def Ascending (m : Issues) : Prop := m.Pairwise (·.1 < ·.1)

/-- The issues are all there is, each one under its key, and there is no key without one. -/
structure Collects (m : Issues) (issues : List Issue) : Prop where
  ascending : m.Ascending
  filled : ∀ e ∈ m, e.2 ≠ []
  under : ∀ key, m.under key = issues.filter (·.key = key)

@[simp] theorem under_nil (key : String) : under [] key = [] := rfl

theorem under_cons (e : String × List Issue) (rest : Issues) (key : String) :
    under (e :: rest) key = if key = e.1 then e.2 else under rest key := by
  unfold under
  rw [List.lookup_cons]
  by_cases h : key = e.1
  · rw [if_pos h, h, beq_self_eq_true]
    rfl
  · rw [if_neg h, beq_false_of_ne h]

theorem under_of_forall_ne {key : String} (h : ∀ e ∈ m, e.1 ≠ key) : m.under key = [] := by
  induction m with
  | nil => rfl
  | cons e rest ih =>
    rw [under_cons, if_neg (h e List.mem_cons_self).symm]
    exact ih fun e he => h e (List.mem_cons_of_mem _ he)

theorem mem_insert {e : String × List Issue} (he : e ∈ insert i m) :
    e.1 = i.key ∨ e ∈ m := by
  induction m with
  | nil => exact .inl (congrArg Prod.fst (List.mem_singleton.mp he))
  | cons first rest ih =>
    unfold insert at he
    split at he
    · next hkey =>
      rcases List.mem_cons.mp he with rfl | hrest
      · exact .inl hkey.symm
      · exact .inr (List.mem_cons_of_mem _ hrest)
    · split at he
      · rcases List.mem_cons.mp he with rfl | hall
        · exact .inl rfl
        · exact .inr hall
      · rcases List.mem_cons.mp he with rfl | hrest
        · exact .inr List.mem_cons_self
        · exact (ih hrest).imp_right (List.mem_cons_of_mem _)

theorem Ascending.insert (h : m.Ascending) : (insert i m).Ascending := by
  induction m with
  | nil => exact List.pairwise_singleton _ _
  | cons first rest ih =>
    obtain ⟨hfirst, hrest⟩ := List.pairwise_cons.mp h
    unfold Issues.insert
    split
    · exact List.pairwise_cons.mpr ⟨hfirst, hrest⟩
    · next hne =>
      split
      · next hlt =>
        refine List.pairwise_cons.mpr ⟨fun e he => ?_, h⟩
        rcases List.mem_cons.mp he with rfl | he
        · exact hlt
        · exact String.lt_trans hlt (hfirst e he)
      · next hle =>
        refine List.pairwise_cons.mpr ⟨fun e he => ?_, ih hrest⟩
        rcases mem_insert he with hkey | he
        · rw [hkey]
          exact Std.lt_of_le_of_ne hle (Ne.symm hne)
        · exact hfirst e he

theorem filled_insert (h : ∀ e ∈ m, e.2 ≠ []) : ∀ e ∈ insert i m, e.2 ≠ [] := by
  induction m with
  | nil => simp [insert]
  | cons first rest ih =>
    obtain ⟨hfirst, hrest⟩ := List.forall_mem_cons.mp h
    unfold insert
    split
    · have hne : first.2 ++ [i] ≠ [] := List.append_ne_nil_of_right_ne_nil _ (List.cons_ne_nil _ _)
      exact List.forall_mem_cons.mpr ⟨hne, hrest⟩
    · split
      · exact List.forall_mem_cons.mpr ⟨List.cons_ne_nil _ _, h⟩
      · exact List.forall_mem_cons.mpr ⟨hfirst, ih hrest⟩

/-- An issue is put behind those with its key. -/
theorem Ascending.under_insert (h : m.Ascending) (key : String) :
    (Issues.insert i m).under key = m.under key ++ if i.key = key then [i] else [] := by
  induction m with
  | nil =>
    rw [Issues.insert, under_cons, under_nil, List.nil_append]
    exact if_congr eq_comm rfl rfl
  | cons first rest ih =>
    obtain ⟨hfirst, hrest⟩ := List.pairwise_cons.mp h
    unfold Issues.insert
    split
    · next hkey =>
      rw [under_cons, under_cons]
      by_cases hk : key = first.1
      · rw [if_pos hk, if_pos hk, if_pos (hkey.trans hk.symm)]
      · rw [if_neg hk, if_neg hk, if_neg fun heq => hk (heq.symm.trans hkey), List.append_nil]
    · next hne =>
      split
      · next hlt =>
        rw [under_cons]
        by_cases hk : key = i.key
        · -- the keys behind the new one are greater
          have hnone : under (first :: rest) key = [] := by
            refine under_of_forall_ne fun e he heq => ?_
            rcases List.mem_cons.mp he with rfl | he
            · exact String.lt_irrefl _ ((heq.trans hk) ▸ hlt)
            · exact String.lt_irrefl _ ((heq.trans hk) ▸ String.lt_trans hlt (hfirst e he))
          rw [if_pos hk, hnone, if_pos hk.symm, List.nil_append]
        · rw [if_neg hk, if_neg (Ne.symm hk), List.append_nil]
      · rw [under_cons, under_cons, ih hrest]
        by_cases hk : key = first.1
        · rw [if_pos hk, if_pos hk, if_neg fun heq => hne (heq.trans hk), List.append_nil]
        · rw [if_neg hk, if_neg hk]

theorem Collects.insert (h : m.Collects issues) : (Issues.insert i m).Collects (issues ++ [i]) where
  ascending := h.ascending.insert
  filled := filled_insert h.filled
  under key := by
    rw [h.ascending.under_insert, h.under, List.filter_append, List.filter_singleton]
    simp only [decide_eq_true_eq, cond_eq_ite]

theorem collects_ofList (issues : List Issue) : (ofList issues).Collects issues := by
  induction issues using List.reverseRecOn with
  | nil => exact ⟨List.Pairwise.nil, nofun, fun _ => rfl⟩
  | append_singleton issues i ih =>
    unfold ofList at ih ⊢
    rw [List.foldl_append]
    exact ih.insert

end Issues

/-! ### Rules -/

/-- What a dataset has to keep to. Rules of a field have its position. -/
inductive Rule where
  | name (slot : Nat)
  | distinct (slot : Nat)
  | type (slot : Nat)
  | primary
  | display
deriving DecidableEq, Repr

/-- What is looked at to tell whether a dataset is well-formed: its fields and keys, and what is
wrong with the types of the fields. -/
structure Survey where
  fields : List Field
  keys : FieldKeys
  typeError? : Nat → Option TypeError

namespace Survey

variable (v : Survey)

/-- There is a field with this name, ignoring case. -/
def Named (name : String) : Prop := ∃ f ∈ v.fields, Text.eqFold f.name name = true

instance (name : String) : Decidable (v.Named name) :=
  inferInstanceAs (Decidable (∃ f ∈ v.fields, _))

structure WellFormed : Prop where
  words : ∀ f ∈ v.fields, Text.isWord f.name = true
  distinct : v.fields.Pairwise fun f g => Text.eqFold f.name g.name = false
  types : ∀ slot < v.fields.length, v.typeError? slot = none
  primary : v.keys.primary = "" ∨ v.Named v.keys.primary
  display : v.keys.display = "" ∨ v.Named (displayHead v.keys.display)

/-- The issue of a rule, if it is broken. -/
def broken? : Rule → Option Issue
  | .name slot => do
    let f ← v.fields[slot]?
    if Text.isWord f.name then none else some (.badName f.name)
  | .distinct slot => do
    let f ← v.fields[slot]?
    if ∃ g ∈ v.fields.take slot, Text.eqFold g.name f.name = true then some (.duplicate f.name)
    else none
  | .type slot => do
    let f ← v.fields[slot]?
    let e ← v.typeError? slot
    return .badType f.name e
  | .primary =>
    if v.keys.primary = "" ∨ v.Named v.keys.primary then none
    else some (.primaryMissing v.keys.primary)
  | .display =>
    if v.keys.display = "" ∨ v.Named (displayHead v.keys.display) then none
    else some (.displayMissing v.keys.display)

/-- The rules of a dataset with these fields. -/
def rules : List Rule :=
  (List.range v.fields.length).flatMap (fun slot => [.name slot, .distinct slot, .type slot]) ++
    [.primary, .display]

/-- One issue for every rule that is broken. -/
def issues : List Issue := v.rules.filterMap v.broken?

/-! ### Every rule once -/

theorem nodup_rules : v.rules.Nodup := by
  unfold rules
  refine List.nodup_append.mpr ⟨?_, by decide, ?_⟩
  · refine List.nodup_flatMap.mpr ⟨fun slot _ => by simp, ?_⟩
    refine List.nodup_range.imp fun {slot slot'} hne rule hrule hrule' => hne ?_
    simp only [List.mem_cons, List.not_mem_nil, or_false] at hrule hrule'
    rcases hrule with rfl | rfl | rfl <;> simpa using hrule'
  · intro rule hrule key hkey
    obtain ⟨slot, -, hrule⟩ := List.mem_flatMap.mp hrule
    simp only [List.mem_cons, List.not_mem_nil, or_false] at hrule hkey
    rcases hrule with rfl | rfl | rfl <;> rcases hkey with rfl | rfl <;> exact nofun

theorem mem_rules {rule : Rule} {issue : Issue} (h : v.broken? rule = some issue) :
    rule ∈ v.rules := by
  have hslot {slot : Nat} {f : Field} (hf : v.fields[slot]? = some f) :
      slot ∈ List.range v.fields.length :=
    List.mem_range.mpr (List.getElem?_eq_some_iff.mp hf).1
  unfold rules
  cases rule with
  | name slot | distinct slot | type slot =>
    obtain ⟨f, hf, -⟩ := Option.bind_eq_some_iff.mp h
    exact List.mem_append_left _ (List.mem_flatMap.mpr ⟨slot, hslot hf, by simp⟩)
  | primary | display => exact List.mem_append_right _ (by simp)

/-! ### Rules of fields, and of keys -/

section Fields

variable {slot : Nat} {f : Field}

theorem filterMap_fieldRules (hf : v.fields[slot]? = some f) :
    [.name slot, .distinct slot, .type slot].filterMap v.broken? =
      fieldIssues (v.fields.take slot) f (v.typeError? slot) := by
  have hname : v.broken? (.name slot) =
      if Text.isWord f.name then none else some (.badName f.name) := by
    rw [broken?, hf]
    rfl
  have hdistinct : v.broken? (.distinct slot) =
      if (v.fields.take slot).any (Text.eqFold ·.name f.name) then some (.duplicate f.name)
      else none := by
    rw [broken?, hf]
    exact if_congr List.any_eq_true.symm rfl rfl
  have htype : v.broken? (.type slot) = (v.typeError? slot).map (.badType f.name) := by
    rw [broken?, hf]
    cases v.typeError? slot <;> rfl
  unfold fieldIssues
  rw [List.filterMap_cons, hname, List.filterMap_cons, hdistinct, List.filterMap_cons, htype]
  cases Text.isWord f.name <;> cases (v.fields.take slot).any (Text.eqFold ·.name f.name) <;>
    cases v.typeError? slot <;> rfl

end Fields

theorem fieldIssues_eq_nil {earlier : List Field} {f : Field} {typeError : Option TypeError} :
    fieldIssues earlier f typeError = [] ↔ Text.isWord f.name = true ∧
      (∀ g ∈ earlier, Text.eqFold g.name f.name = false) ∧ typeError = none := by
  unfold fieldIssues
  rw [List.append_eq_nil_iff, List.append_eq_nil_iff, and_assoc, Option.toList_eq_nil_iff,
    Option.map_eq_none_iff]
  simp

theorem issues_eq : v.issues =
    (v.fields.mapIdx fun slot f =>
        fieldIssues (v.fields.take slot) f (v.typeError? slot)).flatten ++
      [.primary, .display].filterMap v.broken? := by
  have hfields : (v.fields.mapIdx fun slot f =>
        fieldIssues (v.fields.take slot) f (v.typeError? slot)) =
      (List.range v.fields.length).map fun slot =>
        [.name slot, .distinct slot, .type slot].filterMap v.broken? := by
    refine List.ext_getElem (by simp) fun slot hslot hslot' => ?_
    rw [List.getElem_mapIdx, List.getElem_map, List.getElem_range]
    exact (v.filterMap_fieldRules (List.getElem?_eq_getElem _)).symm
  rw [hfields, ← List.flatMap_def, issues, rules, List.filterMap_append, List.filterMap_flatMap]

/-- Nothing is broken in a well-formed dataset. -/
theorem wellFormed_iff : v.WellFormed ↔ v.issues = [] := by
  have hkeys : [.primary, .display].filterMap v.broken? = [] ↔
      (v.keys.primary = "" ∨ v.Named v.keys.primary) ∧
        (v.keys.display = "" ∨ v.Named (displayHead v.keys.display)) := by
    simp only [List.filterMap_eq_nil_iff, List.mem_cons, List.not_mem_nil, or_false,
      forall_eq_or_imp, forall_eq, broken?, ite_eq_left_iff, reduceCtorEq, imp_false, not_not]
  have hfields : (v.fields.mapIdx fun slot f =>
        fieldIssues (v.fields.take slot) f (v.typeError? slot)).flatten = [] ↔
      ∀ (slot : Nat) (h : slot < v.fields.length), Text.isWord v.fields[slot].name = true ∧
        (∀ g ∈ v.fields.take slot, Text.eqFold g.name v.fields[slot].name = false) ∧
        v.typeError? slot = none := by
    rw [List.flatten_eq_nil_iff]
    constructor
    · intro h slot hslot
      exact fieldIssues_eq_nil.mp (h _ (List.mem_mapIdx.mpr ⟨slot, hslot, rfl⟩))
    · intro h issues hissues
      obtain ⟨slot, hslot, rfl⟩ := List.mem_mapIdx.mp hissues
      exact fieldIssues_eq_nil.mpr (h slot hslot)
  rw [issues_eq, List.append_eq_nil_iff, hkeys, hfields]
  constructor
  · intro h
    refine ⟨fun slot hslot => ⟨h.words _ (List.getElem_mem _), fun g hg => ?_, h.types slot hslot⟩,
      h.primary, h.display⟩
    obtain ⟨slot', hlt, rfl⟩ := List.mem_take_iff_getElem.mp hg
    exact List.pairwise_iff_getElem.mp h.distinct slot' slot (by omega) hslot (by omega)
  · rintro ⟨hfields, hprimary, hdisplay⟩
    refine ⟨fun f hf => ?_, List.pairwise_iff_getElem.mpr fun slot slot' hslot hslot' hlt => ?_,
      fun slot hslot => (hfields slot hslot).2.2, hprimary, hdisplay⟩
    · obtain ⟨slot, hslot, rfl⟩ := List.mem_iff_getElem.mp hf
      exact (hfields slot hslot).1
    · exact (hfields slot' hslot').2.1 _ (List.mem_take_iff_getElem.mpr ⟨slot, by omega, rfl⟩)

/-! ### Breakdowns -/

/-- Only the check of a type can have broken down. -/
theorem breakdown?_of_broken? {rule : Rule} {issue : Issue} {b : Breakdown}
    (h : v.broken? rule = some issue) (hb : issue.breakdown? = some b) :
    ∃ slot e, rule = .type slot ∧ v.typeError? slot = some e ∧ e.breakdown? = some b := by
  cases rule with
  | type slot =>
    obtain ⟨f, -, h⟩ := Option.bind_eq_some_iff.mp h
    obtain ⟨e, he, h⟩ := Option.bind_eq_some_iff.mp h
    cases h
    exact ⟨slot, e, rfl, he, hb⟩
  | name slot | distinct slot =>
    obtain ⟨f, -, h⟩ := Option.bind_eq_some_iff.mp h
    split_ifs at h
    cases h
    cases hb
  | primary | display =>
    simp only [broken?] at h
    split_ifs at h
    cases h
    cases hb

theorem exists_of_breakdown? {b : Breakdown} (h : v.issues.findSome? Issue.breakdown? = some b) :
    ∃ slot e, v.typeError? slot = some e ∧ e.breakdown? = some b := by
  obtain ⟨issue, hissue, hb⟩ := List.exists_of_findSome?_eq_some h
  obtain ⟨rule, -, hrule⟩ := List.mem_filterMap.mp hissue
  obtain ⟨slot, e, -, he, hb⟩ := v.breakdown?_of_broken? hrule hb
  exact ⟨slot, e, he, hb⟩

theorem isSome_breakdown? {slot : Nat} {e : TypeError} {b : Breakdown}
    (hslot : slot < v.fields.length) (he : v.typeError? slot = some e) (hb : e.breakdown? = some b) :
    (v.issues.findSome? Issue.breakdown?).isSome = true := by
  have hbroken : v.broken? (.type slot) = some (.badType v.fields[slot].name e) := by
    rw [broken?, List.getElem?_eq_getElem hslot, he]
    rfl
  rw [List.findSome?_isSome_iff]
  refine ⟨_, List.mem_filterMap.mpr ⟨_, v.mem_rules hbroken, hbroken⟩, ?_⟩
  exact Option.isSome_iff_exists.mpr ⟨b, hb⟩

end Survey

/-! ### What validation finds -/

theorem fieldListIssues_eq (earlier : List Field) (checked : List (Field × Option TypeError)) :
    fieldListIssues earlier checked = (checked.mapIdx fun slot e =>
      fieldIssues (earlier ++ (checked.take slot).map (·.1)) e.1 e.2).flatten := by
  induction checked generalizing earlier with
  | nil => rfl
  | cons first rest ih =>
    rw [List.mapIdx_cons, List.flatten_cons, fieldListIssues, ih, List.take_zero, List.map_nil,
      List.append_nil]
    simp only [List.take_succ_cons, List.map_cons, List.append_assoc, List.cons_append,
      List.nil_append]

section Keys

variable {fs : Fields} {v : Survey} (hc : fs.Coherent) (hfields : v.fields = fs.all)

include hc hfields

/-- A name is missed if no field has it, whatever has been derived so far. -/
theorem Fields.Coherent.byName_isNone (name : String) :
    (Fields.byName name fs).1.isNone = decide (¬ v.Named name) := by
  rw [Bool.eq_iff_iff, Option.isNone_iff_eq_none, hc.byName_eq_none, decide_eq_true_iff,
    ← fs.map_spec_all, ← hfields]
  simp only [List.forall_mem_map, Survey.Named, Text.eqFold_iff, not_exists, not_and]
  rfl

/-- The rule of a key, as it is checked. -/
theorem Fields.Coherent.keyRule_eq (name head : String) (i : Issue) :
    (if name = "" ∨ v.Named head then none else some i) =
      if !name.isEmpty &&
          (if name.isEmpty then (none, fs) else Fields.byName head fs).1.isNone then some i
      else none := by
  by_cases hempty : name.isEmpty = true
  · rw [if_pos (.inl (String.isEmpty_iff.mp hempty)), hempty]
    rfl
  · have hne : name ≠ "" := fun h => hempty (String.isEmpty_iff.mpr h)
    rw [if_neg hempty, hc.byName_isNone hfields]
    by_cases hnamed : v.Named head <;> simp [hne, hnamed]

theorem Fields.Coherent.keyIssues_eq (hkeys : v.keys = fs.keys) :
    fs.keyIssues = [.primary, .display].filterMap v.broken? := by
  have hprimary : v.broken? .primary =
      if !fs.keys.primary.isEmpty && (Fields.primaryField fs).1.isNone
      then some (.primaryMissing fs.keys.primary) else none := by
    rw [Survey.broken?, hkeys, Fields.primaryField_eq]
    exact hc.keyRule_eq hfields _ _ _
  have hdisplay : v.broken? .display =
      if !fs.keys.display.isEmpty && (Fields.displayField fs).1.isNone
      then some (.displayMissing fs.keys.display) else none := by
    rw [Survey.broken?, hkeys, Fields.displayField_eq]
    exact hc.keyRule_eq hfields _ _ _
  rw [List.filterMap_cons, hprimary, List.filterMap_cons, hdisplay, Fields.keyIssues,
    TenantSchema.keyIssues]
  split <;> split <;> rfl

end Keys

namespace World

variable {σ : Type} [Outside σ] {w : World (Store σ)} {id : Nat} {stored : StoredDataset}

/-- What is wrong with the type of a field. -/
def typeError? (f : Field) (w : World (Store σ)) : Option TypeError :=
  match ((f.type.validateDescriptor : Decoding (Store σ) Unit).run w).1 with
  | .ok () => none
  | .error e => some e

/-- The world in which the types of so many fields have been checked. -/
def checked (w : World (Store σ)) (id : Nat) (fs : Fields) (count : Nat) : World (Store σ) :=
  (typeErrors (fs.all.take count) (onFields id Fields.toList w).2).2

/-- A dataset with these fields as validation looks at it. The types are checked one after the
other, each one in the world that the checks before it have left. -/
def survey (w : World (Store σ)) (id : Nat) (fs : Fields) : Survey where
  fields := fs.all
  keys := fs.keys
  typeError? slot := do
    let f : Field ← fs.all[slot]?
    typeError? f (w.checked id fs slot)

/-- The references of some field, as they have been resolved when its type is checked, go on beyond
the depth of the stack. -/
def LeadsOn (w : World (Store σ)) (id : Nat) (fs : Fields) : Prop :=
  ∃ (slot : Nat) (f : Field), fs.all[slot]? = some f ∧
    f.type.LeadsOn (w.checked id fs (slot + 1)) (Outside.depth σ)

theorem typeErrors_eq_mapIdx (fields : List Field) (w : World (Store σ)) :
    (typeErrors fields w).1 =
      fields.mapIdx fun slot f => (f, typeError? f (typeErrors (fields.take slot) w).2) := by
  induction fields generalizing w with
  | nil => rfl
  | cons f rest ih =>
    rw [typeErrors_cons, List.mapIdx_cons]
    simp only [List.take_succ_cons, typeErrors_cons, ih]
    rfl

theorem typeErrors_survey (w : World (Store σ)) (id : Nat) (fs : Fields) {slot : Nat}
    (h : slot < (typeErrors fs.all (onFields id Fields.toList w).2).1.length)
    (hslot : slot < fs.all.length) :
    (typeErrors fs.all (onFields id Fields.toList w).2).1[slot] =
      (fs.all[slot], (w.survey id fs).typeError? slot) := by
  have htype : (w.survey id fs).typeError? slot = typeError? fs.all[slot]
      (typeErrors (fs.all.take slot) (onFields id Fields.toList w).2).2 := by
    show (fs.all[slot]?).bind _ = _
    rw [List.getElem?_eq_getElem hslot]
    rfl
  simp only [typeErrors_eq_mapIdx, List.getElem_mapIdx, htype]

theorem typeErrors_concat_world (fields : List Field) (f : Field) (w : World (Store σ)) :
    (typeErrors (fields ++ [f]) w).2 =
      ((f.type.validateDescriptor : Decoding (Store σ) Unit).run (typeErrors fields w).2).2 := by
  induction fields generalizing w with
  | nil => rfl
  | cons g rest ih => exact ih _

/-- The check of one type leads to the world of the next. -/
theorem checked_succ {fs : Fields} {slot : Nat} {f : Field} (hf : fs.all[slot]? = some f) :
    ((f.type.validateDescriptor : Decoding (Store σ) Unit).run (w.checked id fs slot)).2 =
      w.checked id fs (slot + 1) := by
  unfold checked
  rw [List.take_add_one, hf]
  exact (typeErrors_concat_world _ f _).symm

/-- The type of a field is found to break down if its references go on, and only then. -/
theorem survey_breaks_iff {fs : Fields} {slot : Nat} {f : Field} (hf : fs.all[slot]? = some f) :
    (f.type.LeadsOn (w.checked id fs (slot + 1)) (Outside.depth σ) →
        (w.survey id fs).typeError? slot = some (.breakdown .exhausted)) ∧
      (¬ f.type.LeadsOn (w.checked id fs (slot + 1)) (Outside.depth σ) →
        ∀ e, (w.survey id fs).typeError? slot = some e → e.breakdown? = none) := by
  have htype : (w.survey id fs).typeError? slot = typeError? f (w.checked id fs slot) := by
    show (fs.all[slot]?).bind _ = _
    rw [hf]
    rfl
  have hworld : ((f.type.validateDescriptor : Decoding (Store σ) Unit).run
      (w.checked id fs slot)).2 = w.checked id fs (slot + 1) := checked_succ hf
  rw [htype]
  unfold typeError?
  rcases hrun : (f.type.validateDescriptor : Decoding (Store σ) Unit).run (w.checked id fs slot) with
    ⟨outcome, w'⟩
  rw [hrun] at hworld
  obtain rfl := hworld
  obtain ⟨hbreaks, hunbroken⟩ := FieldType.validateDescriptor_breaks_iff hrun
  constructor
  · intro hon
    rw [hbreaks hon]
  · intro hends e he
    split at he
    · cases he
    · next e' houtcome =>
      cases he
      exact hunbroken hends e houtcome

/-- What ends a validation is that the references of some field go on. -/
theorem survey_breakdown? (w : World (Store σ)) (id : Nat) (fs : Fields) :
    (w.LeadsOn id fs →
        (w.survey id fs).issues.findSome? Issue.breakdown? = some .exhausted) ∧
      (¬ w.LeadsOn id fs → (w.survey id fs).issues.findSome? Issue.breakdown? = none) := by
  have hexhausted {b : Breakdown}
      (hb : (w.survey id fs).issues.findSome? Issue.breakdown? = some b) :
      w.LeadsOn id fs ∧ b = .exhausted := by
    obtain ⟨slot, e, he, hb⟩ := (w.survey id fs).exists_of_breakdown? hb
    obtain ⟨f, hf, -⟩ := Option.bind_eq_some_iff.mp he
    by_cases hon : f.type.LeadsOn (w.checked id fs (slot + 1)) (Outside.depth σ)
    · rw [(survey_breaks_iff hf).1 hon] at he
      cases he
      cases hb
      exact ⟨⟨slot, f, hf, hon⟩, rfl⟩
    · rw [(survey_breaks_iff hf).2 hon e he] at hb
      cases hb
  constructor
  · rintro ⟨slot, f, hf, hon⟩
    obtain ⟨hslot, -⟩ := List.getElem?_eq_some_iff.mp hf
    obtain ⟨b, hb⟩ := Option.isSome_iff_exists.mp <|
      (w.survey id fs).isSome_breakdown? hslot ((survey_breaks_iff hf).1 hon) rfl
    rw [hb, (hexhausted hb).2]
  · intro hends
    rw [Option.eq_none_iff_forall_ne_some]
    exact fun b hb => hends (hexhausted hb).1

theorem datasetIssues_survey (hw : w.store.Sound) (hd : w.store.stored? id = some stored) :
    (datasetIssues id w).1 = (w.survey id stored.dataset.fields).issues := by
  have hfields := typeErrors_fields stored.dataset.fields.all (onFields id Fields.toList w).2
  have hkeys : stored.dataset.fields.keyIssues =
      [.primary, .display].filterMap (w.survey id stored.dataset.fields).broken? :=
    (hw _ _ hd).coherent.keyIssues_eq rfl rfl
  rw [datasetIssues_answer hw hd, Survey.issues_eq, hkeys, fieldListIssues_eq]
  refine congrArg (List.flatten · ++ _) (List.ext_getElem ?_ fun slot hslot hslot' => ?_)
  · rw [List.length_mapIdx, List.length_mapIdx, ← List.length_map (f := (·.1)), hfields]
    rfl
  · have hlist : slot < stored.dataset.fields.all.length := by
      rw [List.length_mapIdx] at hslot'
      exact hslot'
    rw [List.getElem_mapIdx, List.getElem_mapIdx, List.map_take, hfields, List.nil_append,
      typeErrors_survey w id stored.dataset.fields _ hlist]
    rfl

/-- The answer is made of what the survey finds. -/
theorem validateFields_survey {d : Descriptor} (hw : w.store.Sound)
    (hd : w.store.stored? d.id = some stored) :
    (validateFields d w).1 =
      DatasetError.check d.path (w.survey d.id stored.dataset.fields).issues := by
  rw [← datasetIssues_survey hw hd]
  rfl

theorem validateFields_leadsOn {d : Descriptor} (hw : w.store.Sound)
    (hd : w.store.stored? d.id = some stored) (hon : w.LeadsOn d.id stored.dataset.fields) :
    (validateFields d w).1 = .error (.breakdown .exhausted) := by
  rw [validateFields_survey hw hd, DatasetError.check, (survey_breakdown? w _ _).1 hon]

end World

/-! ### The main statement -/

/-- In whatever scene a dataset is validated, and whatever its lookups are answered: it passes
exactly if it is well-formed. Otherwise the error has one issue for every rule that is broken, and no
other, under the name of the field or under the key of the dataset. This is so unless the references
of a field go on beyond the depth of the stack; then there is no answer. -/
theorem dataset_valid_iff {σ : Type} [Outside σ] (outside : σ) (calls : List (SceneCall σ))
    (s : Scene σ) (hs : s = after Scene.step calls (Scene.start outside)) (d : Descriptor)
    (stored : StoredDataset) (hd : s.world.store.stored? d.id = some stored) (v : Survey)
    (hv : v = s.world.survey d.id stored.dataset.fields) :
    ((World.validateFields d s.world).1 = .ok () ↔ v.WellFormed) ∧
      (¬ s.world.LeadsOn d.id stored.dataset.fields →
        v.WellFormed ∨ ∃ m : Issues, (World.validateFields d s.world).1 =
          .error (.invalid d.path m) ∧ m.Collects v.issues) ∧
      (s.world.LeadsOn d.id stored.dataset.fields →
        (World.validateFields d s.world).1 = .error (.breakdown .exhausted)) ∧
      v.rules.Nodup ∧ ∀ rule issue, v.broken? rule = some issue → rule ∈ v.rules := by
  subst hv
  have hsound : s.Sound := hs ▸ Scene.sound_after outside calls
  have hissues := World.datasetIssues_survey hsound.store hd
  have hok : (World.validateFields d s.world).1 = .ok () ↔
      (s.world.survey d.id stored.dataset.fields).WellFormed := by
    rw [World.validateFields_ok_iff, hissues, Survey.wellFormed_iff]
  refine ⟨hok, fun hends => ?_, World.validateFields_leadsOn hsound.store hd, Survey.nodup_rules _,
    fun rule issue => Survey.mem_rules _⟩
  by_cases hwell : (s.world.survey d.id stored.dataset.fields).WellFormed
  · exact .inl hwell
  · rw [Survey.wellFormed_iff] at hwell
    refine .inr ⟨_, ?_, Issues.collects_ofList _⟩
    rw [World.validateFields_survey hsound.store hd, DatasetError.check,
      (World.survey_breakdown? s.world d.id stored.dataset.fields).2 hends]
    dsimp only
    rw [if_neg (by simpa using hwell)]

namespace ContactsWithoutCities

def via : Via := .weak { domains := 1, metrics := 1 }

/-- A name twice, one that is no word, cities that nobody knows, and a key without its field. One
field has the name that the issues of the dataset are kept under. -/
def contacts : DatasetSpec :=
  { name := "contacts", path := "contacts", primary := "key", display := "Id.name"
    fields := [.ofKind "id" (.signed .int), .ofKind "ID" (.signed .int),
      .ofKind "full name" (.text .string), .ofType "dataset" (.lookup "cities")] }

def dictionary : Descriptor := (Dataset.ofSpec 0 .dictionary 0 contacts via).descriptor

def calls : List (SceneCall Directory) := [.addRegistry {}, .addDictionary 0 contacts via]

def scene : Scene Directory := after Scene.step calls (Scene.start {})

theorem contacts_there : ∃ dict, scene.world.store.stored? 0 = some (.dictionary dict) :=
  Store.exists_dictionary (by decide +kernel) (by decide +kernel)

theorem contacts_invalid : (World.validateFields dictionary scene.world).1 ≠ .ok () := by
  decide +kernel

theorem contacts_answered :
    (World.validateFields dictionary scene.world).1 ≠ .error (.breakdown .exhausted) := by
  decide +kernel

example : (World.validateFields dictionary scene.world).1 = .error (.invalid "contacts"
    [("ID", [.duplicate "ID"]),
      ("dataset", [.badType "dataset" (.lookupUnresolved "cities"), .primaryMissing "key"]),
      ("full name", [.badName "full name"])]) := by
  decide +kernel

end ContactsWithoutCities

open ContactsWithoutCities in
theorem contacts_issues_collected : ∃ dict, scene.world.store.stored? 0 = some (.dictionary dict) ∧
    ¬ (scene.world.survey 0 dict.fields).WellFormed ∧
    ∃ m, (World.validateFields dictionary scene.world).1 = .error (.invalid "contacts" m) ∧
      m.Collects (scene.world.survey 0 dict.fields).issues := by
  obtain ⟨dict, hdict⟩ := contacts_there
  have hscene : scene = after Scene.step calls (Scene.start {}) := by
    unfold scene
    rfl
  obtain ⟨hok, hinvalid, hbreaks, -⟩ := dataset_valid_iff ({} : Directory) calls scene hscene dictionary
    (.dictionary dict) hdict _ rfl
  have hwell := fun h => contacts_invalid (hok.mpr h)
  have hends := fun hon => contacts_answered (hbreaks hon)
  exact ⟨dict, hdict, hwell, (hinvalid hends).resolve_left hwell⟩

namespace SelfKeyed

def registry : Registry := { domains := 1, metrics := 1 }

def via : Via := .weak registry

/-- Nodes are known by the node before them. -/
def nodes : DatasetSpec :=
  { name := "nodes", path := "nodes", fields := [.ofType "before" (.lookup "nodes")]
    primary := "before" }

def dictionary : Dataset := .ofSpec 0 .dictionary 0 nodes via

def before : LookupType := { cell := .field 0 1 0, path := "nodes", domain := 0, via }

def target : Target := ⟨"nodes", "before", .element (.lookup before)⟩

section AnyStack

variable {σ : Type} [Outside σ]

def calls : List (SceneCall σ) :=
  [.addRegistry {}, .addDictionary 0 nodes via,
    .registry (.register registry dictionary.descriptor)]

def scene (outside : σ) : Scene σ := after Scene.step calls (Scene.start outside)

/-- The world in which the type of the field is checked. -/
def checking (outside : σ) : World (Store σ) := (scene outside).world.checked 0 dictionary.fields 0

variable (outside : σ)

theorem nodes_there :
    (scene outside).world.store.stored? 0 = some (.dictionary dictionary) := by
  rfl

theorem nodes_looked_up : (Store.findDictionary via 0 "nodes" (checking outside).store).1 =
    .ok (some dictionary.descriptor) := by
  rfl

theorem nodes_kept :
    ((Store.findDictionary via 0 "nodes" (checking outside).store).2.stored? 0).map
      (·.dataset.fields) = some (Fields.toList dictionary.fields).2 := by
  rfl

theorem nodes_found : (DictionarySource.find via 0 "nodes" (checking outside).store).1 =
    .ok (some ⟨"nodes", some ("before", target.idType)⟩) := by
  unfold DictionarySource.find Store.instDictionarySource
  dsimp only
  rw [bind_apply, nodes_looked_up]
  dsimp only
  rw [bind_apply, Store.onFields_eq]
  obtain ⟨stored, hstored, hfields⟩ := Option.map_eq_some_iff.mp (nodes_kept outside)
  have hid : dictionary.descriptor.id = 0 := rfl
  rw [hid, hstored]
  dsimp only
  rw [hfields]
  rfl

theorem before_resolved : ∃ w, (before.resolve : Decoding (Store σ) Target).run (checking outside) =
    (.ok target, w) :=
  ⟨_, LookupType.run_resolve_of_found rfl (by decide)
    (congrArg before.targetOfFound (nodes_found outside))⟩

/-- The references of the field lead to the field itself. -/
theorem nodes_lead_on : (scene outside).world.LeadsOn 0 dictionary.fields := by
  obtain ⟨f, hf, htype⟩ : ∃ f, dictionary.fields.all[0]? = some f ∧ f.type = target.idType :=
    ⟨_, rfl, rfl⟩
  obtain ⟨w, hresolve⟩ := before_resolved outside
  have hrun : (target.idType.validateDescriptor : Decoding (Store σ) Unit).run (checking outside) =
      (.error (.breakdown .exhausted), w) :=
    LookupType.run_of_circle hresolve rfl (Outside.depth σ)
  have hworld : (scene outside).world.checked 0 dictionary.fields 1 = w := by
    rw [← World.checked_succ hf, htype]
    exact congrArg Prod.snd hrun
  refine ⟨0, f, hf, before, by rw [htype]; rfl, ?_⟩
  rw [hworld]
  exact LookupType.leadsOn_of_circle (LookupType.target?_of_resolve hresolve).2 rfl _

theorem nodes_break_down : (World.validateFields dictionary.descriptor (scene outside).world).1 =
    .error (.breakdown .exhausted) := by
  have hsound : (scene outside).Sound := Scene.sound_after outside calls
  exact World.validateFields_leadsOn hsound.store (nodes_there outside) (nodes_lead_on outside)

end AnyStack

end SelfKeyed

open SelfKeyed in
/-- A dictionary that is known by itself is neither found valid nor found invalid, however deep the
stack is. -/
theorem nodes_unanswered :
    ¬ (∀ (calls : List (SceneCall Directory)) (s : Scene Directory),
        s = after Scene.step calls (Scene.start {}) → ∀ (d : Descriptor) (stored : StoredDataset),
          s.world.store.stored? d.id = some stored →
            (World.validateFields d s.world).1 = .ok () ∨
              ∃ m, (World.validateFields d s.world).1 = .error (.invalid d.path m)) ∧
      ∀ depth : Nat,
        (@World.validateFields _ (Directory.beside depth) dictionary.descriptor
          (@scene _ (Directory.beside depth) {}).world).1 = .error (.breakdown .exhausted) := by
  refine ⟨fun h => ?_, fun depth => @nodes_break_down _ (Directory.beside depth) {}⟩
  have hbreaks := nodes_break_down ({} : Directory)
  have hclaim := h calls (scene {}) rfl dictionary.descriptor (.dictionary dictionary)
    (nodes_there ({} : Directory))
  rcases hclaim with hok | ⟨m, hinvalid⟩
  · rw [hbreaks] at hok
    cases hok
  · rw [hbreaks] at hinvalid
    cases hinvalid

end TenantSchema
