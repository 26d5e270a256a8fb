import Mathlib.Data.List.Induction
import TenantSchema.Proofs.FieldsCoherent
import TenantSchema.Record

/-!
# Logs of writes

All the writes to a record, the latest last, say what the record holds: the last write of every
field is its value, and the fields in the order of their last writes are the written ones.
-/

namespace TenantSchema

theorem Field.same_comm (f g : Field) : f.same g = g.same f := by
  rw [Bool.eq_iff_iff, Field.same_iff, Field.same_iff]
  constructor
  · rintro ⟨h₁, h₂, h₃⟩
    exact ⟨h₁.symm, h₂.symm, h₃.symm⟩
  · rintro ⟨h₁, h₂, h₃⟩
    exact ⟨h₁.symm, h₂.symm, h₃.symm⟩

/-- Values under the fields that they were written to. -/
abbrev WriteLog := List (Field × Value)

namespace WriteLog

/-- The value of the last write to a field. -/
def last? (ws : WriteLog) (f : Field) : Option Value :=
  ((ws.reverse.find? (·.1.same f)).map (·.2))

/-- The writes that no later one to the same field follows. -/
def latest : WriteLog → WriteLog
  | [] => []
  | e :: rest => if rest.any (·.1.same e.1) then latest rest else e :: latest rest

@[simp] theorem last?_nil (f : Field) : last? [] f = none := rfl

theorem last?_concat (ws : WriteLog) (e : Field × Value) (f : Field) :
    last? (ws ++ [e]) f = if e.1.same f then some e.2 else last? ws f := by
  unfold last?
  rw [List.reverse_append, List.reverse_singleton, List.singleton_append, List.find?_cons]
  cases e.1.same f <;> rfl

/-- The last write to a field is one of the writes. -/
theorem mem_of_last? {ws : WriteLog} {f : Field} {v : Value} (h : ws.last? f = some v) :
    ∃ e ∈ ws, e.1.same f = true ∧ e.2 = v := by
  obtain ⟨e, he, hv⟩ := Option.map_eq_some_iff.mp h
  have hs := List.find?_some he
  exact ⟨e, List.mem_reverse.mp (List.mem_of_find?_eq_some he), hs, hv⟩

theorem latest_concat (ws : WriteLog) (e : Field × Value) :
    latest (ws ++ [e]) = (latest ws).filter (!·.1.same e.1) ++ [e] := by
  induction ws with
  | nil => rfl
  | cons w rest ih =>
    rw [List.cons_append]
    unfold latest
    rw [ih, List.any_append, List.any_cons, List.any_nil, Bool.or_false, e.1.same_comm w.1]
    cases hr : rest.any (·.1.same w.1) with
    | true => simp
    | false => cases hw : w.1.same e.1 <;> simp [hw]

theorem mem_of_mem_latest {ws : WriteLog} {e : Field × Value} (h : e ∈ latest ws) : e ∈ ws := by
  induction ws with
  | nil => exact h
  | cons w rest ih =>
    unfold latest at h
    split at h
    · exact List.mem_cons_of_mem _ (ih h)
    · rcases List.mem_cons.mp h with rfl | h
      · exact List.mem_cons_self
      · exact List.mem_cons_of_mem _ (ih h)

/-- The last write to a field carries its value. -/
theorem last?_of_mem_latest {ws : WriteLog} {e : Field × Value} (h : e ∈ latest ws) :
    last? ws e.1 = some e.2 := by
  induction ws using List.reverseRecOn with
  | nil => exact absurd h List.not_mem_nil
  | append_singleton ws w ih =>
    rw [latest_concat, List.mem_append, List.mem_filter, List.mem_singleton] at h
    rw [last?_concat]
    rcases h with ⟨h, hne⟩ | rfl
    · have hs : w.1.same e.1 = false := by
        rw [Field.same_comm]
        simpa using hne
      rw [hs]
      exact ih h
    · simp

end WriteLog

/-! ### What a record holds -/

namespace Fields

/-- The names of the fields are distinct, ignoring case. -/
def Distinct (fs : Fields) : Prop := (fs.specs.map (Text.lower ·.id)).Nodup

instance (fs : Fields) : Decidable fs.Distinct := List.nodupDecidable _

variable {fs : Fields} {f g : Field} {i j : Nat}

theorem Distinct.eq_of_named (h : fs.Distinct) (hf : fs.fieldAt? i = some f)
    (hg : fs.fieldAt? j = some g) (hn : Named g.name f) : f = g := by
  obtain ⟨-, -, -, hfs⟩ := fieldAt?_spec hf
  obtain ⟨-, -, -, hgs⟩ := fieldAt?_spec hg
  have hi : (fs.specs.map (Text.lower ·.id))[i]? = some (Text.lower f.name) := by
    rw [List.getElem?_map, hfs]
    rfl
  have hj : (fs.specs.map (Text.lower ·.id))[j]? = some (Text.lower g.name) := by
    rw [List.getElem?_map, hgs]
    rfl
  have hlt : i < (fs.specs.map (Text.lower ·.id)).length := (List.getElem?_eq_some_iff.mp hi).1
  have hij : i = j := (List.getElem?_inj hlt h).mp (by rw [hi, hj, hn])
  subst hij
  exact Option.some.inj (hf.symm.trans hg)

/-- A name leads to the field that has it, and to no other. -/
theorem Coherent.byName_eq_some_iff (hc : fs.Coherent) (hd : fs.Distinct)
    (hf : fs.fieldAt? i = some f) {name : String} :
    (Fields.byName name fs).1 = some f ↔ Named name f := by
  constructor
  · exact fun hb => (hc.byName_some hb).2
  · intro hn
    cases hb : (Fields.byName name fs).1 with
    | none =>
      obtain ⟨-, -, -, hs⟩ := fieldAt?_spec hf
      exact absurd hn (hc.byName_eq_none.mp hb f.spec (List.mem_of_getElem? hs))
    | some g =>
      obtain ⟨⟨j, hj⟩, hng⟩ := hc.byName_some hb
      rw [hd.eq_of_named hj hf (hng.trans hn.symm)]

/-- The name of a field leads back to the field. -/
theorem Coherent.byName_name (hc : fs.Coherent) (hd : fs.Distinct) (hf : fs.fieldAt? i = some f) :
    (Fields.byName f.name fs).1 = some f :=
  (hc.byName_eq_some_iff hd hf).mpr rfl

theorem Agrees.distinct {fs' : Fields} (h : fs.Agrees fs') (hd : fs.Distinct) : fs'.Distinct := by
  unfold Distinct
  rw [h.specs]
  exact hd

/-- Within one list, a field is told by its position. -/
theorem same_iff_num (hf : fs.fieldAt? i = some f) (hg : fs.fieldAt? j = some g) :
    f.same g = true ↔ i = j := by
  constructor
  · intro hs
    obtain ⟨-, -, hn, -⟩ := fieldAt?_spec hf
    obtain ⟨-, -, hn', -⟩ := fieldAt?_spec hg
    obtain ⟨-, hnum, -⟩ := Field.same_iff.mp hs
    omega
  · rintro rfl
    rw [Option.some.inj (hf.symm.trans hg)]
    exact Field.same_self g

theorem eq_of_same (hf : fs.fieldAt? i = some f) (hg : fs.fieldAt? j = some g)
    (hs : f.same g = true) : f = g := by
  rw [(same_iff_num hf hg).mp hs, hg] at hf
  exact (Option.some.inj hf).symm

end Fields

/-- The record holds what the log says, in a field list as it was when the record was made. -/
structure Record.Holds (origin : Fields) (log : WriteLog) (r : Record) : Prop where
  owner : r.descriptor.id = origin.owner
  version : r.version = origin.version
  size : r.size = origin.length
  written : ∀ e ∈ log, ∃ i, origin.fieldAt? i = some e.1
  value : ∀ i f, origin.fieldAt? i = some f → r.values[i]? = some ((log.last? f).getD .null)
  touched : origin.Distinct → r.touched = log.latest.map (·.1.name)

namespace Record

variable {origin : Fields} {log : WriteLog} {r : Record}

theorem holds_of {d : Descriptor} {fields : Fields} (h : d.id = fields.owner) :
    (Record.of d fields).Holds fields [] where
  owner := h
  version := rfl
  size := List.length_replicate
  written := by simp
  value i f hf := by
    have hlt := Fields.lt_of_fieldAt? hf
    simp [Record.of, hlt]
  touched _ := rfl

theorem Holds.agrees {fields : Fields} (h : r.Holds origin log) (ha : origin.Agrees fields) :
    r.Holds fields log where
  owner := h.owner.trans ha.owner.symm
  version := h.version.trans ha.version.symm
  size := by
    rw [h.size, Fields.length, Fields.length, ha.specs]
  written e he := by
    simp only [ha.fieldAt?]
    exact h.written e he
  value i f hf := h.value i f ((ha.fieldAt? i).symm.trans hf)
  touched hd := h.touched (ha.symm.distinct hd)

/-- Distinct fields have distinct names. -/
theorem Holds.nodup_touched (h : r.Holds origin log) (hd : origin.Distinct) :
    r.touched.Nodup := by
  rw [h.touched hd]
  have hw := h.written
  clear h
  induction log using List.reverseRecOn with
  | nil => exact List.nodup_nil
  | append_singleton log e ih =>
    have hlog : ∀ w ∈ log, ∃ i, origin.fieldAt? i = some w.1 :=
      fun w hm => hw w (List.mem_append_left _ hm)
    obtain ⟨i, hi⟩ := hw e (by simp)
    rw [WriteLog.latest_concat, List.map_append, List.nodup_append]
    refine ⟨(ih hlog).sublist (List.filter_sublist.map _), by simp, ?_⟩
    intro a ha b hb hab
    obtain ⟨w, hm, rfl⟩ := List.mem_map.mp ha
    obtain ⟨hm, hne⟩ := List.mem_filter.mp hm
    obtain ⟨j, hj⟩ := hlog w (WriteLog.mem_of_mem_latest hm)
    have hname : w.1.name = e.1.name := by simpa [hab] using hb
    have hwe : w.1 = e.1 := hd.eq_of_named hj hi (congrArg Text.lower hname)
    simp [hwe] at hne

/-- A write moves its name behind all others and sets its slot. -/
theorem Holds.store (h : r.Holds origin log) {i : Nat} {f : Field}
    (hf : origin.fieldAt? i = some f) (v : Value) :
    (r.store i f.name v).Holds origin (log ++ [(f, v)]) where
  owner := h.owner
  version := h.version
  size := by
    show (r.values.set i v).length = _
    rw [List.length_set]
    exact h.size
  written e he := by
    rcases List.mem_append.mp he with he | he
    · exact h.written e he
    · rw [List.mem_singleton.mp he]
      exact ⟨i, hf⟩
  value j g hg := by
    have hlt : i < r.values.length := by
      rw [show r.values.length = origin.length from h.size]
      exact Fields.lt_of_fieldAt? hf
    have hsame := Fields.same_iff_num hf hg
    show (r.values.set i v)[j]? = _
    rw [WriteLog.last?_concat, List.getElem?_set]
    by_cases hij : i = j
    · rw [if_pos hij, if_pos hlt, if_pos (hsame.mpr hij)]
      rfl
    · rw [if_neg hij, if_neg (mt hsame.mp hij)]
      exact h.value j g hg
  touched hd := by
    have hnd := h.nodup_touched hd
    show r.touched.erase f.name ++ [f.name] = _
    rw [WriteLog.latest_concat, List.map_append, hnd.erase_eq_filter, h.touched hd, List.filter_map]
    -- distinct names make erasing the name the same as dropping the writes to the field
    congr 2
    refine List.filter_congr fun e he => ?_
    obtain ⟨j, hj⟩ := h.written e (WriteLog.mem_of_mem_latest he)
    by_cases hn : e.1.name = f.name
    · have hef : e.1 = f := hd.eq_of_named hj hf (congrArg Text.lower hn)
      simp [hef]
    · have hne : e.1.same f = false := by
        rw [← Bool.not_eq_true, Fields.same_iff_num hj hf]
        rintro rfl
        exact hn (congrArg Field.name (Option.some.inj (hj.symm.trans hf)))
      simp [hn, hne]

end Record

end TenantSchema
