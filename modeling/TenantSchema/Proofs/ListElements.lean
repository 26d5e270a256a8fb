import Mathlib.Logic.Function.Iterate
import TenantSchema.Proofs.ReferenceIds

/-!
# Lists and their elements

A list decodes all its items before it checks the first value, while an item alone is decoded and
checked at once. Both come to the same: a list gives what its items give, each for itself, whatever
the element type makes of a value between decoding and checking.
-/

namespace TenantSchema

variable {τ : Type}

section Items

variable {α β : Type} {w : World τ}

theorem forall₂_and_mem {R : α → β → Prop} {p : β → Prop} {l : List α} {bs : List β} :
    List.Forall₂ (fun a b => R a b ∧ p b) l bs ↔ List.Forall₂ R l bs ∧ ∀ b ∈ bs, p b := by
  have hflip : List.Forall₂ (fun b a => p b ∧ R a b) bs l ↔
      (∀ b ∈ bs, p b) ∧ List.Forall₂ (fun b a => R a b) bs l := List.forall₂_and_left bs l
  constructor
  · intro h
    obtain ⟨hp, hR⟩ := hflip.mp (h.imp fun _ _ => And.symm).flip
    exact ⟨hR.flip, hp⟩
  · rintro ⟨hR, hp⟩
    exact (hflip.mpr ⟨hp, hR.flip⟩).flip.imp fun _ _ => And.symm

theorem exists_forall₂ {R : α → β → Prop} {l : List α} :
    (∃ bs, List.Forall₂ R l bs) ↔ ∀ a ∈ l, ∃ b, R a b := by
  induction l with
  | nil => simp
  | cons a l ih =>
    rw [List.forall_mem_cons, ← ih]
    constructor
    · rintro ⟨_, h⟩
      cases h with
      | cons h hrest => exact ⟨⟨_, h⟩, _, hrest⟩
    · rintro ⟨⟨b, h⟩, bs, hrest⟩
      exact ⟨b :: bs, .cons h hrest⟩

theorem Unmoved.of_constant {f : α → Decoding τ β} (h : ∀ a, Constant (f a)) : Unmoved f :=
  fun _ a' b' => (h a').brings _ _ b'

theorem Constant.brings_bind {m : Decoding τ α} (hm : Constant m) {k : α → Decoding τ β} {b : β} :
    Brings w (m >>= k) b ↔ ∃ a, Brings w m a ∧ Brings w (k a) b := by
  obtain ⟨outcome, hm⟩ := hm
  rw [TenantSchema.brings_bind]
  constructor
  · rintro ⟨a, w', ha, hb⟩
    obtain rfl : w = w' := by rw [hm] at ha; exact congrArg Prod.snd ha
    exact ⟨a, ⟨w, ha⟩, hb⟩
  · rintro ⟨a, ha, hb⟩
    exact ⟨a, w, Prod.ext (brings_iff.mp ha) (by rw [hm]), hb⟩

theorem brings_forM {f : α → Decoding τ Unit} (h : ∀ a, Constant (f a)) {l : List α} :
    Brings w (l.forM f) () ↔ ∀ a ∈ l, Brings w (f a) () := by
  induction l with
  | nil => exact iff_of_true (brings_pure.mpr rfl) (List.forall_mem_nil _)
  | cons a l ih =>
    rw [List.forall_mem_cons, ← ih]
    show Brings w (f a >>= fun _ => l.forM f) () ↔ _
    rw [(h a).brings_bind]
    exact ⟨fun ⟨_, ha, hl⟩ => ⟨ha, hl⟩, fun ⟨ha, hl⟩ => ⟨(), ha, hl⟩⟩

end Items

/-! ### One list -/

section Lists

variable {follow : LookupType → RowRef → Decoding τ Value} {e : ElementType} {input : Input}
  {inputs : List Input} {v : Value} {w : World τ}

/-- A list decodes item by item, and then checks value by value. -/
theorem FieldType.brings_list (hitems : items input = .ok (some inputs)) :
    Brings w ((FieldType.list e).decodeBy follow input) v ↔
      ∃ vs w', (inputs.mapM (e.decode follow ·)).run w = (.ok vs, w') ∧
        Brings w' (vs.forM (e.validate follow ·)) () ∧ v = .list vs := by
  have hdecode : (FieldType.list e).decodeInput follow input =
      inputs.mapM (e.decode follow ·) >>= fun vs => pure (.list vs) := by
    unfold decodeInput
    rw [hitems]
    rfl
  unfold decodeBy
  rw [hdecode, bind_assoc, brings_bind]
  refine exists_congr fun vs => exists_congr fun w' => and_congr_right fun _ => ?_
  show Brings w' (vs.forM (e.validate follow ·) >>= fun _ => pure (.list vs)) v ↔ _
  rw [brings_bind]
  constructor
  · rintro ⟨_, w'', hvalid, hv⟩
    exact ⟨⟨w'', hvalid⟩, brings_pure.mp hv⟩
  · rintro ⟨⟨w'', hvalid⟩, hv⟩
    exact ⟨(), w'', hvalid, brings_pure.mpr hv⟩

section Alone

variable (he : ∀ l, e ≠ .lookup l)

include he

theorem ElementType.brings_decodeBy_alone :
    Brings w ((FieldType.element e).decodeBy follow input) v ↔
      Brings w (e.decode follow input) v ∧ Brings w (e.validate follow v) () := by
  show Brings w (e.decode follow input >>= fun v => e.validate follow v >>= fun _ => pure v) v ↔ _
  rw [(constant_decode he input).brings_bind]
  constructor
  · rintro ⟨v', hv', h⟩
    obtain ⟨_, hvalid, h⟩ := (constant_validate he v').brings_bind.mp h
    obtain rfl := brings_pure.mp h
    exact ⟨hv', hvalid⟩
  · rintro ⟨hv, hvalid⟩
    exact ⟨v, hv, (constant_validate he v).brings_bind.mpr ⟨(), hvalid, brings_pure.mpr rfl⟩⟩

/-- For types that look at nothing but the input, two rounds over a list come to one round in which
each item is decoded and checked. -/
theorem ElementType.brings_list_alone (hitems : FieldType.items input = .ok (some inputs)) :
    Brings w ((FieldType.list e).decodeBy follow input) v ↔
      ∃ vs, List.Forall₂ (fun input x => Brings w ((FieldType.element e).decodeBy follow input) x)
        inputs vs ∧ v = .list vs := by
  simp only [brings_decodeBy_alone he, forall₂_and_mem]
  rw [FieldType.brings_list hitems]
  refine exists_congr fun vs => ?_
  rw [← brings_mapM (Unmoved.of_constant (constant_decode he))]
  have hvalid (w' : World τ) : Brings w' (vs.forM (e.validate follow ·)) () ↔
      ∀ x ∈ vs, Brings w (e.validate follow x) () :=
    (brings_forM (constant_validate he)).trans
      (forall₂_congr fun x _ => (constant_validate he x).brings w' w ())
  simp only [hvalid]
  constructor
  · rintro ⟨w', hvs, hchecked, hv⟩
    exact ⟨⟨⟨w', hvs⟩, hchecked⟩, hv⟩
  · rintro ⟨⟨⟨w', hvs⟩, hchecked⟩, hv⟩
    exact ⟨w', hvs, hchecked, hv⟩

end Alone

section Consistent

variable (hc : Consistent follow)

include hc

theorem ElementType.brings_list (hitems : FieldType.items input = .ok (some inputs)) :
    Brings w ((FieldType.list e).decodeBy follow input) v ↔
      ∃ vs, List.Forall₂ (fun input x => Brings w ((FieldType.element e).decodeBy follow input) x)
        inputs vs ∧ v = .list vs := by
  by_cases he : ∃ l, e = .lookup l
  · obtain ⟨l, rfl⟩ := he
    simp only [FieldType.brings_decodeBy_reference hc]
    rw [FieldType.brings_decodeBy_references hc, RowRef.ReadsList, hitems]
  · exact brings_list_alone (not_exists.mp he) hitems

/-- An item that was decoded and checked leaves the others as they were. -/
theorem ElementType.unmoved_decodeBy (e : ElementType) :
    Unmoved ((FieldType.element e).decodeBy follow ·) := by
  by_cases he : ∃ l, e = .lookup l
  · obtain ⟨l, rfl⟩ := he
    intro h
    rcases LookupType.decodeBy_later hc h with ⟨-, rfl⟩ | ⟨-, hsame⟩
    · exact fun _ _ => Iff.rfl
    · exact hsame _ (Std.Refl.refl (r := World.Remembers) _)
  · exact Unmoved.of_constant (constant_decodeBy (not_exists.mp he))

end Consistent

end Lists

/-! ### Nested lists -/

/-- The sources that are read as a sequence. -/
inductive Sequence where
  | wires (ws : List Wire)
  | values (vs : List Value)

namespace Sequence

def source : Sequence → Source
  | .wires ws => .wire (.array ws)
  | .values vs => .value (.list vs)

/-- Each item as a source of its own. -/
def items : Sequence → List Source
  | .wires ws => ws.map .wire
  | .values vs => vs.map .value

theorem items_input (s : Sequence) :
    FieldType.items s.source.input = .ok (some (s.items.map Source.input)) := by
  cases s <;> (rw [items, List.map_map]; rfl)

end Sequence

theorem FieldType.iterate_listOf (e : ElementType) (nesting : Nat) :
    listOf^[nesting + 1] (.element e) = .list e := by
  induction nesting with
  | zero => rfl
  | succ nesting ih =>
    rw [Function.iterate_succ_apply', ih]
    rfl

section Decoding

variable [DictionarySource τ]

section Sequences

variable {w : World τ} {e : ElementType} {s : Sequence}

/-- For a sequence, a list gives the values of the items in their order. -/
theorem FieldType.brings_sequence {v : Value} :
    Brings w ((FieldType.list e).decode s.source : Decoding τ Value) v ↔
      ∃ vs, List.Forall₂ (fun item x => Brings w ((FieldType.element e).decode item) x) s.items vs ∧
        v = .list vs := by
  have hc : Consistent fun l r =>
      (l.typedIdWithin r (DictionarySource.depth τ + 1) : Decoding τ Value) :=
    LookupType.typedIdWithin_consistent _
  refine (ElementType.brings_list hc s.items_input).trans (exists_congr fun vs => ?_)
  rw [List.forall₂_map_left_iff]
  rfl

theorem FieldType.succeeds_sequence :
    Succeeds w ((FieldType.list e).decode s.source : Decoding τ Value) ↔
      ∀ item ∈ s.items, Succeeds w ((FieldType.element e).decode item) := by
  refine Iff.trans ?_ exists_forall₂
  constructor
  · rintro ⟨v, hv⟩
    obtain ⟨vs, heach, -⟩ := brings_sequence.mp hv
    exact ⟨vs, heach⟩
  · rintro ⟨vs, heach⟩
    exact ⟨.list vs, brings_sequence.mpr ⟨vs, heach, rfl⟩⟩

/-- The items may as well be decoded one after another, each in the world that the last one left. -/
theorem FieldType.brings_in_turn {vs : List Value} :
    Brings w ((FieldType.list e).decode s.source : Decoding τ Value) (.list vs) ↔
      Brings w (s.items.mapM (FieldType.element e).decode) vs := by
  have hc : Consistent fun l r =>
      (l.typedIdWithin r (DictionarySource.depth τ + 1) : Decoding τ Value) :=
    LookupType.typedIdWithin_consistent _
  have hone : Unmoved fun item => ((FieldType.element e).decode item : Decoding τ Value) :=
    fun h a' b' => ElementType.unmoved_decodeBy hc e h a'.input b'
  rw [brings_sequence, brings_mapM hone]
  constructor
  · rintro ⟨vs', heach, hv⟩
    cases hv
    exact heach
  · exact fun heach => ⟨vs, heach, rfl⟩

end Sequences

/-- The type is of lists of elements that are no lists. In this world it gives for a sequence what
the element type gives for the items, each for itself or one after another, in their order, and it
succeeds exactly if the element type does for each. -/
structure FieldType.ListsOf (w : World τ) (e : ElementType) (t : FieldType) : Prop where
  element : t.elem? = some e
  notNested : e.kind ≠ .list
  values : ∀ (s : Sequence) (v : Value), Brings w (t.decode s.source) v ↔
    ∃ vs, v = .list vs ∧ vs.length = s.items.length ∧
      List.Forall₂ (fun item x => Brings w ((FieldType.element e).decode item) x) s.items vs
  succeeds : ∀ s : Sequence, Succeeds w (t.decode s.source) ↔
    ∀ item ∈ s.items, Succeeds w ((FieldType.element e).decode item)
  inTurn : ∀ (s : Sequence) (vs : List Value), Brings w (t.decode s.source) (.list vs) ↔
    Brings w (s.items.mapM (FieldType.element e).decode) vs
  empty : ∀ s : Sequence, s.items = [] → (t.decode s.source).run w = (.ok (.list []), w)

/-- However deeply lists are nested around an element type, they are lists of the elements, and
decode elementwise. -/
theorem FieldType.nested_lists_decode_elementwise (w : World τ) (e : ElementType) (nesting : Nat) :
    (listOf^[nesting + 1] (.element e)).ListsOf w e := by
  rw [iterate_listOf]
  constructor
  · rfl
  · cases e <;> nofun
  · intro s v
    refine brings_sequence.trans (exists_congr fun vs => ?_)
    constructor
    · rintro ⟨heach, hv⟩
      exact ⟨hv, heach.length_eq.symm, heach⟩
    · rintro ⟨hv, -, heach⟩
      exact ⟨heach, hv⟩
  · exact fun s => succeeds_sequence
  · exact fun s vs => brings_in_turn
  · rintro (ws | vs) h
    · rw [List.map_eq_nil_iff.mp h]
      rfl
    · rw [List.map_eq_nil_iff.mp h]
      rfl

/-- A null among the items is an item like the others. -/
example : ((FieldType.element .bool).listOf.listOf.decode
    (.wire (.array [.bool true, .null, .string "f"]))).run noDictionaries =
      (.ok (.list [.bool true, .null, .bool false]), noDictionaries) := by
  rfl

end Decoding

end TenantSchema
