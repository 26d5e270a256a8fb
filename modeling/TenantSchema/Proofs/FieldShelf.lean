import TenantSchema.Proofs.FieldAccess

/-!
# Fields and their lists

Several field lists side by side, with all the fields that any of them has handed out. Lists are
read and redefined in any order. A field belongs to the list that it came from, as long as that list
stays at its version, and at one version a position has one field.
-/

namespace TenantSchema

namespace Fields

variable {fs fs' fs'' : Fields} {f g : Field} {i : Nat}

/-! ### Fields handed out -/

theorem Sized.getFrom_kept (hs : fs.Sized) (count i : Nat) :
    ∀ f ∈ (Fields.getFrom count i fs).1, (Fields.getFrom count i fs).2.Kept f := by
  induction count generalizing fs i with
  | zero => exact fun f hf => (List.not_mem_nil hf).elim
  | succ count ih =>
    have hs' := (get_retains i fs hs).1
    rw [getFrom_succ]
    cases hg : (Fields.get i fs).1 with
    | none => exact fun f hf => (List.not_mem_nil hf).elim
    | some g =>
      dsimp only
      intro f hf
      rcases List.mem_cons.mp hf with rfl | hf
      · exact (hs.get_kept hg).retained (lookups_retain.getFrom count (i + 1) _) hs'
      · exact ih hs' (i + 1) f hf

/-- What a call hands out is kept. -/
theorem Sized.access_kept (hs : fs.Sized) (a : Access) :
    ∀ f ∈ (Fields.access a fs).1, (Fields.access a fs).2.Kept f := by
  intro f hf
  cases a with
  | get i => exact hs.get_kept (Option.mem_toList.mp hf)
  | toList => exact hs.getFrom_kept _ 0 f hf
  | byName name => exact hs.byName_kept (Option.mem_toList.mp hf)
  | contains name => exact (List.not_mem_nil hf).elim
  | owns g => exact (List.not_mem_nil hf).elim

/-! ### Answers -/

/-- A kept field is handed out again as it is. -/
theorem get_of_fresh (hc : fs.Coherent) (hf : fs.fresh? i = some f) :
    Fields.get i fs = (some f, fs) := by
  obtain ⟨-, -, -, hs⟩ := fieldAt?_spec (hc.fresh? hf)
  rw [get_of_some hs]
  unfold Fields.obtain
  rw [hf]

theorem toNat_nextVersion {v : UInt32} (h : v.toNat + 1 < UInt32.size) :
    (nextVersion v).toNat = v.toNat + 1 := by
  have hadd : (v + 1).toNat = v.toNat + 1 := by
    rw [UInt32.toNat_add]
    exact Nat.mod_eq_of_lt h
  have hne : v + 1 ≠ 0 := by
    intro h0
    rw [h0] at hadd
    exact absurd hadd (by simp)
  unfold nextVersion
  rw [if_neg hne, hadd]

theorem lt_nextVersion {v : UInt32} (h : v.toNat + 1 < UInt32.size) : v < nextVersion v := by
  rw [UInt32.lt_iff_toNat_lt, toNat_nextVersion h]
  omega

end Fields

/-! ### Shelves -/

/-- Some field lists, numbered by their positions, and the fields that they have handed out. -/
structure Shelf where
  lists : List Fields := []
  /-- With the number of the list that each field came from. -/
  handed : List (Nat × Field) := []

inductive ShelfCall where
  | add (specs : List FieldSpec) (keys : FieldKeys) (context : TypeContext)
  | access (k : Nat) (a : Fields.Access)
  /-- Replaces the definitions of a list. -/
  | reset (k : Nat) (specs : List FieldSpec) (keys : FieldKeys) (context : TypeContext)

/-- Replaces the definitions of the list at this position. -/
def ShelfCall.resets (k : Nat) : ShelfCall → Bool
  | .reset j .. => j = k
  | _ => false

namespace Shelf

def next (s : Shelf) : ShelfCall → Shelf
  | .add specs keys context =>
    { s with lists := s.lists ++ [.ofSpecs s.lists.length specs keys context] }
  | .access k a =>
    match s.lists[k]? with
    | none => s
    | some fs =>
      let found := Fields.access a fs
      { lists := s.lists.set k found.2, handed := s.handed ++ found.1.map (k, ·) }
  | .reset k specs keys context =>
    match s.lists[k]? with
    | none => s
    | some fs => { s with lists := s.lists.set k (fs.reset specs keys context) }

def step (call : ShelfCall) : StateM Shelf Unit := fun s => ((), s.next call)

/-- A list on the shelf, its definitions replaced at most `n` times. -/
structure Holds (k n : Nat) (fs : Fields) : Prop where
  owner : fs.owner = k
  coherent : fs.Coherent
  version : fs.version.toNat ≤ n + 1

/-- Two fields of one position: at one version they are one field, and the field of a later version
was built later. -/
structure Ordered (f g : Field) : Prop where
  eq : f.version = g.version → f = g
  serial_lt : f.version < g.version → f.serial < g.serial
  serial_gt : g.version < f.version → g.serial < f.serial

/-- The invariant, with the number of replacements of every list. -/
structure Sound (n : Nat → Nat) (s : Shelf) : Prop where
  lists : ∀ k fs, s.lists[k]? = some fs → Holds k (n k) fs
  handed : ∀ e ∈ s.handed, ∃ fs, s.lists[e.1]? = some fs ∧ fs.CameFrom e.2
  unique : ∀ e ∈ s.handed, ∀ e' ∈ s.handed, e.1 = e'.1 → e.2.num = e'.2.num →
    Ordered e.2 e'.2

variable {s : Shelf} {n n' : Nat → Nat} {k m : Nat} {fs fs' : Fields} {f g : Field}

theorem Ordered.symm (h : Ordered f g) : Ordered g f :=
  ⟨fun hv => (h.eq hv.symm).symm, h.serial_gt, h.serial_lt⟩

/-- Fields built one after the other are not the same. -/
theorem Ordered.eq_of_serial (h : Ordered f g) (hs : f.serial = g.serial) : f = g := by
  have hle : f.version ≤ g.version := UInt32.not_lt.mp fun hgt =>
    Nat.ne_of_lt (h.serial_gt hgt) hs.symm
  have hge : g.version ≤ f.version := UInt32.not_lt.mp fun hlt => Nat.ne_of_lt (h.serial_lt hlt) hs
  exact h.eq (UInt32.le_antisymm hle hge)

/-- A field that came from a list, beside one of its current version. -/
theorem ordered_of_cameFrom (hf : fs.CameFrom f) (hg : fs.CameFrom g)
    (hv : g.version = fs.version) (hn : f.num = g.num) : Ordered f g := by
  refine ⟨fun heq => ?_, fun hlt => ?_, fun hgt => ?_⟩
  · have hfresh := hf.fresh (heq.trans hv)
    rw [hn] at hfresh
    exact Option.some.inj (hfresh.symm.trans (hg.fresh hv))
  · have hserial := hf.serial_lt (hv ▸ UInt32.ne_of_lt hlt)
    rwa [hn, Fields.serialAt_of_fresh (hg.fresh hv)] at hserial
  · rw [hv] at hgt
    exact absurd hgt (UInt32.not_lt.mpr hf.version)

/-! ### Steps -/

theorem Holds.access (h : Holds k m fs) (a : Fields.Access) :
    Holds k m (Fields.access a fs).2 := by
  obtain ⟨hc, ha⟩ := Fields.lookups_derive.access a fs h.coherent
  exact ⟨ha.owner.trans h.owner, hc, by rw [ha.version]; exact h.version⟩

theorem Holds.reset (h : Holds k m fs) (hm : m + 2 < UInt32.size) (specs : List FieldSpec)
    (keys : FieldKeys) (context : TypeContext) :
    Holds k (m + 1) (fs.reset specs keys context) := by
  have hv := h.version
  have hlt : fs.version.toNat + 1 < UInt32.size := by omega
  refine ⟨h.owner, h.coherent.reset (Fields.lt_nextVersion hlt) specs keys context, ?_⟩
  show (Fields.nextVersion fs.version).toNat ≤ _
  rw [Fields.toNat_nextVersion hlt]
  omega

theorem Sound.add (h : s.Sound n) (specs : List FieldSpec) (keys : FieldKeys)
    (context : TypeContext) : (s.next (.add specs keys context)).Sound n := by
  refine ⟨fun j fs hj => ?_, fun e he => ?_, h.unique⟩
  · change (s.lists ++ [Fields.ofSpecs s.lists.length specs keys context])[j]? = some fs at hj
    by_cases hlt : j < s.lists.length
    · rw [List.getElem?_append_left hlt] at hj
      exact h.lists j fs hj
    · rw [List.getElem?_append_right (by omega), List.getElem?_singleton] at hj
      split at hj
      · next hz =>
        cases hj
        refine ⟨show s.lists.length = j by omega, Fields.ofSpecs_coherent _ _ _ _, ?_⟩
        show 1 ≤ n j + 1
        omega
      · cases hj
  · obtain ⟨fs, hfs, hf⟩ := h.handed e he
    refine ⟨fs, ?_, hf⟩
    exact (List.getElem?_append_left (List.getElem?_eq_some_iff.mp hfs).1).trans hfs

theorem Sound.mono (h : s.Sound n) (hn : ∀ k, n k ≤ n' k) : s.Sound n' := by
  refine ⟨fun k fs hk => ?_, h.handed, h.unique⟩
  have hfs := h.lists k fs hk
  exact ⟨hfs.owner, hfs.coherent, Nat.le_trans hfs.version (Nat.succ_le_succ (hn k))⟩

/-- One list is replaced by what becomes of it. -/
theorem Sound.set (h : s.Sound n) (hk : s.lists[k]? = some fs) (hfs : Holds k (n k) fs')
    (hold : ∀ f, fs.CameFrom f → fs'.CameFrom f) :
    ({ s with lists := s.lists.set k fs' } : Shelf).Sound n := by
  have hlt : k < s.lists.length := (List.getElem?_eq_some_iff.mp hk).1
  refine ⟨fun j gs hj => ?_, fun e he => ?_, h.unique⟩
  · by_cases hjk : k = j
    · subst hjk
      rw [List.getElem?_set_self hlt] at hj
      cases hj
      exact hfs
    · rw [List.getElem?_set_ne hjk] at hj
      exact h.lists j gs hj
  · obtain ⟨gs, hgs, hf⟩ := h.handed e he
    by_cases hek : k = e.1
    · subst hek
      rw [hk] at hgs
      cases hgs
      exact ⟨fs', List.getElem?_set_self hlt, hold _ hf⟩
    · exact ⟨gs, (List.getElem?_set_ne hek).trans hgs, hf⟩

/-- Fields of the current version are handed out by a list. -/
theorem Sound.hand (h : s.Sound n) (hk : s.lists[k]? = some fs) {new : List Field}
    (hnew : ∀ f ∈ new, fs.CameFrom f ∧ f.version = fs.version) :
    ({ s with handed := s.handed ++ new.map (k, ·) } : Shelf).Sound n := by
  have hcases (e : Nat × Field) (he : e ∈ s.handed ++ new.map (k, ·)) :
      e ∈ s.handed ∨ e.1 = k ∧ fs.CameFrom e.2 ∧ e.2.version = fs.version := by
    rcases List.mem_append.mp he with he | he
    · exact .inl he
    · obtain ⟨f, hf, rfl⟩ := List.mem_map.mp he
      exact .inr ⟨rfl, hnew f hf⟩
  have hfrom (e : Nat × Field) (he : e ∈ s.handed) (hek : e.1 = k) : fs.CameFrom e.2 := by
    obtain ⟨gs, hgs, hf⟩ := h.handed e he
    rw [hek, hk] at hgs
    cases hgs
    exact hf
  refine ⟨h.lists, fun e he => ?_, fun e he e' he' hl hn => ?_⟩
  · rcases hcases e he with he | ⟨rfl, hf, -⟩
    · exact h.handed e he
    · exact ⟨fs, hk, hf⟩
  · rcases hcases e he with he | ⟨hek, hf, hv⟩ <;>
      rcases hcases e' he' with he' | ⟨hek', hf', hv'⟩
    · exact h.unique e he e' he' hl hn
    · exact ordered_of_cameFrom (hfrom e he (hl.trans hek')) hf' hv' hn
    · exact (ordered_of_cameFrom (hfrom e' he' (hl.symm.trans hek)) hf hv hn.symm).symm
    · exact ordered_of_cameFrom hf hf' hv' hn

/-- The number of replacements of a list after one more call. -/
def counted (n : Nat → Nat) (call : ShelfCall) (k : Nat) : Nat :=
  n k + if call.resets k then 1 else 0

theorem Sound.next (h : s.Sound n) (call : ShelfCall)
    (hcall : ∀ k, counted n call k + 1 < UInt32.size) : (s.next call).Sound (counted n call) := by
  cases call with
  | add specs keys context => exact h.add specs keys context
  | access k a =>
    show (match s.lists[k]? with
      | none => s
      | some fs => _ : Shelf).Sound n
    cases hk : s.lists[k]? with
    | none => exact h
    | some fs =>
      have hfs := h.lists k fs hk
      have hread := Fields.lookups_read.access a fs
      have hset := h.set hk (hfs.access a) fun f hf => hf.reads hfs.coherent hread
      refine hset.hand (List.getElem?_set_self (List.getElem?_eq_some_iff.mp hk).1) fun f hf => ?_
      exact (hfs.access a).coherent.cameFrom (hfs.coherent.sized.access_kept a f hf)
  | reset k specs keys context =>
    have hmono : s.Sound (counted n (.reset k specs keys context)) :=
      h.mono fun _ => Nat.le_add_right _ _
    have hcount : counted n (.reset k specs keys context) k = n k + 1 := by
      simp [counted, ShelfCall.resets]
    have hlt := hcall k
    rw [hcount] at hlt
    unfold Shelf.next
    dsimp only
    cases hk : s.lists[k]? with
    | none => exact hmono
    | some fs =>
      have hfs := h.lists k fs hk
      have hv := hfs.version
      refine hmono.set hk ?_ fun f hf => hf.reset hfs.coherent ?_ specs keys context
      · rw [hcount]
        exact hfs.reset (by omega) specs keys context
      · exact Fields.lt_nextVersion (by omega)

theorem Sound.after (h : s.Sound n) (calls : List ShelfCall)
    (hcalls : ∀ k, n k + calls.countP (·.resets k) + 1 < UInt32.size) :
    (TenantSchema.after step calls s).Sound fun k => n k + calls.countP (·.resets k) := by
  induction calls generalizing s n with
  | nil => exact h
  | cons call rest ih =>
    have hsplit (k : Nat) : n k + (call :: rest).countP (·.resets k) =
        counted n call k + rest.countP (·.resets k) := by
      rw [List.countP_cons, counted]
      omega
    simp only [hsplit] at hcalls ⊢
    refine ih (h.next call fun k => ?_) hcalls
    have := hcalls k
    omega

/-! ### The main statement -/

/-- How a list on the shelf answers, given all the fields handed out so far. -/
structure Orderly (s : Shelf) (k : Nat) (fs : Fields) : Prop where
  get_isSome : ∀ i, (Fields.get i fs).1.isSome ↔ i < fs.length
  get : ∀ i f, (Fields.get i fs).1 = some f → fs.specs[i]? = some f.spec ∧ f.num = i + 1 ∧
    f.version = fs.version ∧ f.isPrimary = fs.keys.isPrimary f.name ∧
    f.isDisplay = fs.keys.isDisplay f.name
  /-- A field of the current version is handed out once more, and nothing is derived for it. -/
  again : ∀ f, (k, f) ∈ s.handed → f.version = fs.version →
    Fields.get (f.num - 1) fs = (some f, fs)
  unique : ∀ f g, (k, f) ∈ s.handed → (k, g) ∈ s.handed → f.version = g.version →
    f.num = g.num → f = g
  /-- What is the same as a field of the list is that field, handed out by the list. -/
  identity : ∀ f j g, (k, f) ∈ s.handed → (j, g) ∈ s.handed → f.same g = true → j = k ∧ f = g
  toList : ∀ i, (Fields.toList fs).1[i]? = (Fields.get i fs).1
  byName_isSome : ∀ name, (Fields.byName name fs).1.isSome ↔
    ∃ spec ∈ fs.specs, Text.lower spec.id = Text.lower name
  byName : ∀ name f, (Fields.byName name fs).1 = some f →
    Fields.Named name f ∧ (Fields.get (f.num - 1) fs).1 = some f
  owns : ∀ j f, (j, f) ∈ s.handed →
    ((Fields.owns f fs).1 = true ↔ j = k ∧ f.version = fs.version)

theorem Sound.list_eq (h : s.Sound n) {j : Nat} (hf : (k, f) ∈ s.handed) (hg : (j, g) ∈ s.handed)
    (ho : f.owner = g.owner) : j = k := by
  obtain ⟨fs, hfs, hfrom⟩ := h.handed _ hf
  obtain ⟨gs, hgs, hgrom⟩ := h.handed _ hg
  rw [← (h.lists j gs hgs).owner, ← hgrom.owner, ← ho, hfrom.owner, (h.lists k fs hfs).owner]

theorem Sound.orderly (h : s.Sound n) (hk : s.lists[k]? = some fs) : s.Orderly k fs := by
  have hfs := h.lists k fs hk
  have hc := hfs.coherent
  have hget (i : Nat) : (Fields.get i fs).1 = fs.fieldAt? i := (hc.get i).1
  have hfrom (f : Field) (hf : (k, f) ∈ s.handed) : fs.CameFrom f := by
    obtain ⟨gs, hgs, hf⟩ := h.handed _ hf
    rw [hk] at hgs
    cases hgs
    exact hf
  refine ⟨fun i => ?_, fun i f hf => ?_, fun f hf hv => ?_, fun f g hf hg hv hn => ?_,
    fun f j g hf hg hsame => ?_, fun i => ?_, fun name => ?_, fun name f hf => ?_,
    fun j f hf => ?_⟩
  · rw [hget, Option.isSome_iff_exists]
    exact ⟨fun ⟨f, hf⟩ => Fields.lt_of_fieldAt? hf, Fields.fieldAt?_of_lt⟩
  · rw [hget] at hf
    obtain ⟨spec, hs, rfl⟩ := Fields.fieldAt?_eq_some.mp hf
    exact ⟨hs, rfl, rfl, rfl, rfl⟩
  · exact Fields.get_of_fresh hc ((hfrom f hf).fresh hv)
  · exact (h.unique _ hf _ hg rfl hn).eq hv
  · obtain ⟨ho, hn, hserial⟩ := Field.same_iff.mp hsame
    have hj := h.list_eq hf hg ho
    exact ⟨hj, (h.unique _ hf _ hg hj.symm hn).eq_of_serial hserial⟩
  · rw [hc.toList, hget, Fields.getElem?_all]
  · rw [← not_iff_not, Option.not_isSome_iff_eq_none, hc.byName_eq_none]
    push Not
    exact Iff.rfl
  · obtain ⟨⟨i, hi⟩, hn⟩ := hc.byName_some hf
    obtain ⟨-, -, hnum, -⟩ := Fields.fieldAt?_spec hi
    rw [hget, hnum]
    exact ⟨hn, hi⟩
  · constructor
    · intro howns
      obtain ⟨gs, hgs, hgrom⟩ := h.handed _ hf
      have hj : j = k := by
        rw [← (h.lists j gs hgs).owner, ← hgrom.owner, hc.owner_of_owns howns, hfs.owner]
      subst hj
      exact ⟨rfl, ((hfrom f hf).owns_iff hc).mp howns⟩
    · rintro ⟨rfl, hv⟩
      exact ((hfrom f hf).owns_iff hc).mpr hv

/-- Whatever has been done to some lists, as long as no version has wrapped around: every list hands
out the fields of its definitions now in force, one and the same field for a position until the
definitions are replaced, and owns exactly those fields that it has handed out at its present
version. -/
theorem lists_stay_orderly (calls : List ShelfCall)
    (hcalls : ∀ k, calls.countP (·.resets k) + 1 < UInt32.size) (k : Nat) (fs : Fields)
    (hk : (after step calls {}).lists[k]? = some fs) : (after step calls {}).Orderly k fs := by
  have hstart : Sound (fun _ => 0) {} := by
    refine ⟨fun _ _ h => ?_, fun _ h => ?_, fun _ h => ?_⟩ <;> cases h
  exact (hstart.after calls fun k => by simpa using hcalls k).orderly hk

namespace Redefined

/-- A field is taken from each of two lists, and one of the lists is then redefined and read. -/
def calls : List ShelfCall :=
  [.add [.ofKind "id" .bool, .ofKind "name" .bool] {} {}, .add [.ofKind "name" .bool] {} {},
    .access 0 (.byName "NAME"), .access 1 (.get 0), .reset 0 [.ofKind "name" .duration] {} {},
    .access 0 .toList]

theorem list_there : ((after step calls {}).lists[0]?).isSome = true := by decide +kernel

end Redefined

open Redefined in
theorem redefined_list_orderly :
    ∃ fs, (after step calls {}).lists[0]? = some fs ∧
      (after step calls {}).handed.map (fun e => (e.1, e.2.num, e.2.version)) =
        [(0, 2, 1), (1, 1, 1), (0, 1, 2)] ∧
      (∀ k, calls.countP (·.resets k) + 1 < UInt32.size) ∧
      (after step calls {}).Orderly 0 fs := by
  have hfs := (Option.some_get list_there).symm
  have hcalls (k : Nat) : calls.countP (·.resets k) + 1 < UInt32.size := by
    have hle : calls.countP (·.resets k) ≤ 6 := List.countP_le_length
    exact Nat.lt_of_le_of_lt (Nat.succ_le_succ hle) (by decide)
  exact ⟨_, hfs, by decide +kernel, hcalls, lists_stay_orderly calls hcalls 0 _ hfs⟩

end Shelf

end TenantSchema
