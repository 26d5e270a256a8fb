import TenantSchema.Proofs.Redecoding
import TenantSchema.Value.ToWire

/-!
# References on the wire

On the wire a reference is an object, and the members of an object are trimmed when it is read. So
a reference that was decoded comes back with all its members trimmed: as it was, unless it was given
as a value whose name or type had blanks around it.
-/

namespace TenantSchema

/-! ### Members -/

namespace RowRef

/-- Blanks around the members are left out. -/
def trim (r : RowRef) : RowRef := ⟨Text.trim r.id, Text.trim r.name, Text.trim r.typePath⟩

theorem trim_eq_self_iff {r : RowRef} : r.trim = r ↔ r.Trimmed := by
  constructor
  · intro h
    exact ⟨congrArg RowRef.id h, congrArg RowRef.name h, congrArg RowRef.typePath h⟩
  · rintro ⟨hid, hname, htype⟩
    exact congr (congr (congrArg RowRef.mk hid) hname) htype

/-- Only the name and the type of a reference that is given as a value keep their blanks. -/
theorem trimmed_iff_of_ofInput {input : Input} {r : RowRef} (h : ofInput input = .ok (some r)) :
    r.Trimmed ↔ ∀ given, input = .value (.lookup given) →
      Text.IsTrimmed given.name ∧ Text.IsTrimmed given.typePath := by
  constructor
  · rintro htrimmed given rfl
    have hr : r = { given with id := Text.trim given.id } := nonEmpty?_eq_some (Except.ok.inj h)
    subst hr
    exact ⟨htrimmed.name, htrimmed.typePath⟩
  · intro hgiven
    rcases trimmed_of_ofInput h with htrimmed | ⟨given, hinput, rfl⟩
    · exact htrimmed
    · obtain ⟨hname, htype⟩ := hgiven given hinput
      exact ⟨Text.isTrimmed_trim given.id, hname, htype⟩

/-- A member on the wire, unless it is empty. -/
def slot (name text : String) : WireMap := if text.isEmpty then [] else [(name, .string text)]

theorem members_eq (r : RowRef) :
    r.members = slot "id" r.id ++ (slot "name" r.name ++ slot "type" r.typePath) := by
  unfold members slot
  rw [List.filter_cons, List.filter_cons, List.filter_cons, List.filter_nil]
  cases r.id.isEmpty <;> cases r.name.isEmpty <;> cases r.typePath.isEmpty <;> rfl

/-- A member that is left out is as good as an empty one. -/
theorem ofMembers_slot {r : RowRef} {name : String} {put : String → RowRef}
    (hput : ∀ text, r.withMember? name text = some (put text)) (hempty : put "" = r) (text : String)
    (rest : WireMap) :
    ofMembers r (slot name text ++ rest) = ofMembers (put (Text.trim text)) rest := by
  unfold slot
  by_cases h : text.isEmpty = true
  · rw [if_pos h, List.nil_append, String.isEmpty_iff.mp h]
    exact congrArg (ofMembers · rest) hempty.symm
  · have hmember : (memberText? (.string text)).bind (r.withMember? name) =
        some (put (Text.trim text)) := hput _
    rw [if_neg h, List.singleton_append, ofMembers, hmember]

/-- The members that are written are read back trimmed. -/
theorem ofMembers_members (r : RowRef) : ofMembers {} r.members = .ok r.trim := by
  have hid (r : RowRef) (text : String) : r.withMember? "id" text = some { r with id := text } := by
    rfl
  have hname (r : RowRef) (text : String) :
      r.withMember? "name" text = some { r with name := text } := by rfl
  have htype (r : RowRef) (text : String) :
      r.withMember? "type" text = some { r with typePath := text } := by rfl
  rw [members_eq, ofMembers_slot (hid _) rfl, ofMembers_slot (hname _) rfl,
    ← List.append_nil (slot "type" r.typePath), ofMembers_slot (htype _) rfl]
  rfl

theorem ofInput_toWire {r : RowRef} {id : String} (htrim : Text.IsTrimmed r.id)
    (hid : Text.nonBlank? r.id = some id) :
    ofInput (.ofWire (Value.lookup r).toWire) = .ok (some r.trim) := by
  have hwire : (Value.lookup r).toWire = .object r.members :=
    if_neg (by rw [isEmpty_of_nonBlank? hid]; exact Bool.false_ne_true)
  have hthere : r.trim.isEmpty = false := isEmpty_of_nonBlank? ((congrArg _ htrim).trans hid)
  rw [hwire]
  show (ofMembers {} r.members).map nonEmpty? = _
  rw [ofMembers_members]
  show Except.ok r.trim.nonEmpty? = _
  rw [nonEmpty?, hthere]
  rfl

end RowRef

/-! ### Decoding -/

section Follow

variable {τ : Type} {follow : LookupType → RowRef → Decoding τ Value}
  (hfollow : ∀ l r, Steady (follow l r)) (hid : ∀ l r r', r.id = r'.id → follow l r = follow l r')
  {l : LookupType} {input : Input} {r : RowRef} {w w' : World τ}

include hfollow hid

/-- From then on the wire form is decoded to the trimmed reference, which is valid. -/
theorem LookupType.settled_toWire (h : (l.decode follow input).run w = (.ok (.lookup r), w')) :
    Settled w' (l.decode follow (.ofWire (Value.lookup r).toWire)) (.lookup r.trim) ∧
      Settled w' (l.validate follow (.lookup r.trim)) () := by
  rcases decode_cases h with ⟨-, hnull, -⟩ | ⟨_, hread, hr, hcheck⟩
  · cases hnull
  · cases hr
    obtain ⟨id, x, hnonblank, -⟩ := check_run hcheck
    have htrim : r.trim.id = r.id := RowRef.isTrimmed_id_ofInput hread
    have hwire := RowRef.ofInput_toWire htrim hnonblank
    have hthere : r.trim.isEmpty = false := RowRef.isEmpty_of_nonBlank? (htrim ▸ hnonblank)
    generalize r.trim = again at htrim hwire hthere
    have hsettled : Settled w' (l.check follow again) () := by
      have hsame : l.check follow again = l.check follow r := by
        unfold LookupType.check
        rw [htrim, hid l _ r htrim]
      rw [hsame]
      exact ((Steady.sequential.within _).lookupCheck (hfollow l) r w () w' hcheck).2
    constructor
    · unfold LookupType.decode
      rw [hwire]
      exact hsettled.bind (Settled.pure w' (Value.lookup again))
    · show Settled w' (if again.isEmpty then pure () else l.check follow again) ()
      rw [hthere]
      exact hsettled

theorem FieldType.settled_decodeBy_toWire
    (h : ((FieldType.element (.lookup l)).decodeBy follow input).run w = (.ok (.lookup r), w')) :
    Settled w' ((FieldType.element (.lookup l)).decodeBy follow
      (.ofWire (Value.lookup r).toWire)) (.lookup r.trim) := by
  obtain ⟨v, w₁, hdecoded, h⟩ := run_bind_ok h
  obtain ⟨_, w₂, hvalid, h⟩ := run_bind_ok h
  cases h
  have hw : w₁.Remembers w' :=
    ((Steady.sequential.within _).validateBy (fun l _ => hfollow l) _ w₁ () w' hvalid).1
  obtain ⟨hagain, hvalidAgain⟩ := LookupType.settled_toWire hfollow hid hdecoded
  exact (hagain.later hw).bind ((hvalidAgain.later hw).bind (Settled.pure w' (Value.lookup r.trim)))

end Follow

/-! ### Any number of hops -/

section Hops

variable {τ : Type} [DictionarySource τ]

/-- Whether the id of a reference suits its dictionary depends on the id alone. -/
theorem LookupType.typedIdWithin_congr (hops : Nat) (l : LookupType) {r r' : RowRef}
    (h : r.id = r'.id) :
    (l.typedIdWithin r hops : Decoding τ Value) = l.typedIdWithin r' hops := by
  cases hops with
  | zero => rfl
  | succ hops =>
    unfold typedIdWithin
    rw [h]

/-- A reference that was decoded has, in every world that still remembers the targets found on the
way, a wire form that is decoded to the reference with its members trimmed. So it comes back exactly
if it was not given as a value whose name or type had blanks around it. -/
theorem lookup_survives_wire_iff (hops : Nat) (l : LookupType) (source : Source) {w w' : World τ}
    {r : RowRef} (h : ((FieldType.element (.lookup l)).decodeWithin hops source :
      Decoding τ Value).run w = (.ok (.lookup r), w'))
    (later : World τ) (hlater : w'.Remembers later) :
    ((FieldType.element (.lookup l)).decodeWithin hops (.wire (Value.lookup r).toWire) :
        Decoding τ Value).run later = (.ok (.lookup r.trim), later) ∧
      (((FieldType.element (.lookup l)).decodeWithin hops (.wire (Value.lookup r).toWire) :
          Decoding τ Value).run later = (.ok (.lookup r), later) ↔
        ∀ given, source.input = .value (.lookup given) →
          Text.IsTrimmed given.name ∧ Text.IsTrimmed given.typePath) := by
  have hfollow (l : LookupType) (r : RowRef) : Steady (l.typedIdWithin r hops : Decoding τ Value) :=
    Steady.sequential.typedIdWithin Steady.resolve (Steady.throw _) hops l r
  have hback : ((FieldType.element (.lookup l)).decodeWithin hops (.wire (Value.lookup r).toWire) :
      Decoding τ Value).run later = (.ok (.lookup r.trim), later) :=
    FieldType.settled_decodeBy_toWire hfollow
      (fun l _ _ => LookupType.typedIdWithin_congr hops l) h later hlater
  refine ⟨hback, ?_⟩
  obtain ⟨v, w₁, hdecoded, hrest⟩ := run_bind_ok h
  obtain ⟨_, w₂, -, hrest⟩ := run_bind_ok hrest
  cases hrest
  rcases LookupType.decode_cases hdecoded with ⟨-, hnull, -⟩ | ⟨_, hread, hr, -⟩
  · cases hnull
  · cases hr
    rw [hback, ← RowRef.trimmed_iff_of_ofInput hread, ← RowRef.trim_eq_self_iff]
    constructor
    · intro hsame
      exact Value.lookup.inj (Except.ok.inj (congrArg Prod.fst hsame))
    · intro hsame
      rw [hsame]

end Hops

/-! ### Customers -/

namespace Customers

/-- Customers are found, by a number of one byte. -/
def type : FieldType := .element (.lookup (.free 0 0 "customers" .default))

def before : World FoundOnce where
  store := ⟨[⟨"customers", some ("id", .element (.signed (.withBits .int 8 none)))⟩]⟩

def found : World FoundOnce where
  targets := [(.free 0, Orders.customers)]
  store := ⟨[]⟩

/-- Read from an object, the members are trimmed at once. -/
def source : Source := .wire (.object [("Name", .string " Kim "), ("ID", .int (.ofInt64 7))])

def kim : RowRef := { id := "7", name := "Kim" }

theorem kim_survives_wire :
    (type.decodeWithin 2 source).run before = (.ok (.lookup kim), found) ∧
      ∀ later : World FoundOnce, found.Remembers later →
        (type.decodeWithin 2 (.wire (Value.lookup kim).toWire)).run later =
          (.ok (.lookup kim), later) := by
  have h : (type.decodeWithin 2 source).run before = (.ok (.lookup kim), found) := by rfl
  refine ⟨h, fun later hlater => ?_⟩
  exact (lookup_survives_wire_iff 2 _ source h later hlater).2.mpr (nomatch ·, ·)

/-- Given as a value, the name keeps its blanks. -/
def spaced : RowRef := { id := "7", name := " Kim " }

theorem spaced_loses_blanks :
    ¬(∀ (l : LookupType) (source : Source) (w w' : World FoundOnce) (r : RowRef),
        ((FieldType.element (.lookup l)).decode source).run w = (.ok (.lookup r), w') →
          (((FieldType.element (.lookup l)).decode (.wire (Value.lookup r).toWire)).run
            w').1 = .ok (.lookup r)) ∧
      (type.decode (.value (.lookup spaced))).run before = (.ok (.lookup spaced), found) ∧
      (type.decode (.wire (Value.lookup spaced).toWire)).run found =
        (.ok (.lookup kim), found) := by
  have hgiven : (type.decode (.value (.lookup spaced))).run before =
      (.ok (.lookup spaced), found) := by rfl
  have hback : (type.decode (.wire (Value.lookup spaced).toWire)).run found =
      (.ok (.lookup kim), found) := by rfl
  refine ⟨fun h => ?_, hgiven, hback⟩
  have hsame := h _ _ _ _ _ hgiven
  have hkim := (congrArg Prod.fst hback).symm.trans hsame
  exact absurd (Value.lookup.inj (Except.ok.inj hkim)) (by decide)

end Customers

end TenantSchema
