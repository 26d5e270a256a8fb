import TenantSchema.Proofs.FloatNotations
import TenantSchema.Proofs.LookupsOnWire

/-!
# Scalars as references

A scalar on the wire is the id of a reference, on its own or as the only member of an object. Text
and integers are the same id both ways. A float on its own is written as in messages and a float in
an object as on the wire, so that the two may be different ids, or an id and none.
-/

namespace TenantSchema

open TenantSchema.Number

/-! ### The text of a scalar -/

theorem Number.intText_natCast (n : Nat) : intText n = natText n := by
  unfold intText intDigits natText
  rw [if_neg (by omega), Int.natAbs_natCast]

namespace Wire

/-- The scalars that can be an id: text and numbers. -/
def isIdScalar : Wire → Bool
  | .string _ | .int _ | .float _ => true
  | _ => false

/-- The id that a scalar is on its own. -/
def ownId : Wire → String
  | .string s => Text.trim s
  | .int n => intText n.val
  | .float x => floatText x
  | _ => ""

/-- The id that a scalar is as a member of an object. -/
def memberId (x : Wire) : String := (RowRef.memberText? x).getD ""

/-- An object with an id and nothing else. -/
def idOnly (x : Wire) : Wire := .object [("id", x)]

theorem memberText?_of_isIdScalar {x : Wire} (h : x.isIdScalar = true) :
    RowRef.memberText? x = some x.memberId := by
  cases x <;> first | rfl | cases h

/-- Messages and the wire have the same text for the scalar; it can only differ for floats. -/
def IsWrittenAlike (x : Wire) : Prop :=
  ∀ y, x = .float y → y.isFinite = true → y.IsWrittenAlike

theorem ownId_eq_memberId_iff {x : Wire} (h : x.isIdScalar = true) :
    x.ownId = x.memberId ↔ x.IsWrittenAlike := by
  cases x with
  | string s => exact iff_of_true rfl nofun
  | int n => exact iff_of_true rfl nofun
  | float y =>
    refine (floatText_eq_wireFloatText_iff y).trans ⟨?_, fun halike => halike y rfl⟩
    rintro halike _ ⟨⟩
    exact halike
  | _ => cases h

end Wire

/-! ### Reading -/

namespace RowRef

open Text

theorem ofInput_string (s : String) :
    ofInput (.ofWire (.string s)) = .ok ((nonBlank? s).map fun id => { id }) := rfl

/-- An integer is read as its text, whichever word holds it. -/
theorem ofInput_int (n : WireInt) :
    ofInput (.ofWire (.int n)) = .ok (some { id := intText n.val }) := by
  show ofInput (Input.ofWireInt n) = _
  unfold Input.ofWireInt
  cases hword : int64? n.val with
  | some i =>
    rw [← toInt_of_int64? hword]
    rfl
  | none =>
    have hmin := n.minInt64_le
    have hmax := n.le_maxUInt64
    have hlarge : ((n.val.toNat : Nat) : Int) = n.val := by
      unfold int64? at hword
      split at hword
      · cases hword
      · unfold maxInt64 at *
        omega
    have hfits : (UInt64.ofNat n.val.toNat).toNat = n.val.toNat := by
      unfold maxUInt64 at hmax
      rw [UInt64.toNat_ofNat', Nat.mod_eq_of_lt (by omega)]
    have htext : natText (UInt64.ofNat n.val.toNat).toNat = intText n.val := by
      rw [hfits, ← intText_natCast, hlarge]
    rw [← htext]
    rfl

theorem ofInput_float (y : Binary64) :
    ofInput (.ofWire (.float y)) = .ok (some { id := floatText y }) := rfl

/-- A scalar on its own is read as the text of its id. -/
theorem ofInput_ownId {x : Wire} (h : x.isIdScalar = true) :
    ofInput (.ofWire x) = ofInput (.ofWire (.string x.ownId)) := by
  rw [ofInput_string]
  cases x with
  | string s => rw [ofInput_string, Wire.ownId, nonBlank?_trim]
  | int n => rw [ofInput_int, Wire.ownId, nonBlank?_intText, Option.map_some]
  | float y => rw [ofInput_float, Wire.ownId, nonBlank?_floatText, Option.map_some]
  | _ => cases h

/-- A scalar in an object is read as the text of its member. -/
theorem ofInput_idOnly {x : Wire} (h : x.isIdScalar = true) :
    ofInput (.ofWire x.idOnly) = ofInput (.ofWire (.string x.memberId)) := by
  have hmember := Wire.memberText?_of_isIdScalar h
  have hread : ofInput (.ofWire x.idOnly) = .ok (nonEmpty? { id := x.memberId }) := by
    show (ofMembers {} [("id", x)]).map nonEmpty? = _
    rw [ofMembers, hmember]
    rfl
  rw [hread, ofInput_string]
  by_cases hempty : x.memberId = ""
  · rw [hempty]
    rfl
  · have hsome := nonBlank?_of_isTrimmed (isTrimmed_memberText hmember) hempty
    have hthere : ({ id := x.memberId } : RowRef).isEmpty = false := isEmpty_of_nonBlank? hsome
    rw [hsome, nonEmpty?, hthere, if_neg Bool.false_ne_true, Option.map_some]

end RowRef

/-! ### Decoding -/

/-- Two outcomes of decoding are the same value, or both are errors. -/
def SameOutcome (a b : Except TypeError Value) : Prop :=
  a = b ∨ (∃ e, a = .error e) ∧ ∃ e, b = .error e

section Hops

variable {τ : Type} [DictionarySource τ]

/-- A reference type looks at nothing but the reference that an input is read as. -/
theorem FieldType.decodeWithin_congr {l : LookupType} (hops : Nat) {x y : Wire}
    (h : RowRef.ofInput (.ofWire x) = RowRef.ofInput (.ofWire y)) :
    ((FieldType.element (.lookup l)).decodeWithin hops (.wire x) : Decoding τ Value) =
      (FieldType.element (.lookup l)).decodeWithin hops (.wire y) := by
  show (do
    let v ← l.decode _ (.ofWire x)
    l.validate _ v
    return v : Decoding τ Value) = do
    let v ← l.decode _ (.ofWire y)
    l.validate _ v
    return v
  unfold LookupType.decode
  rw [h]

theorem LookupType.eq_of_decodeWithin {l : LookupType} {hops : Nat} {x : Wire} {r : RowRef}
    {v : Value} {w w' : World τ} (hread : RowRef.ofInput (.ofWire x) = .ok (some r))
    (h : ((FieldType.element (.lookup l)).decodeWithin hops (.wire x) : Decoding τ Value).run w =
      (.ok v, w')) : v = .lookup r := by
  obtain ⟨v', w₁, hdecoded, h⟩ := run_bind_ok h
  obtain ⟨_, w₂, -, h⟩ := run_bind_ok h
  cases h
  obtain ⟨found, w₃, hfound, hdecoded⟩ := run_bind_ok hdecoded
  have hsome : found = some r := Except.ok.inj ((congrArg Prod.fst hfound).symm.trans hread)
  subst hsome
  obtain ⟨_, w₄, -, hdecoded⟩ := run_bind_ok hdecoded
  cases hdecoded
  rfl

/-- A float that is decoded both ways to the same has one text. -/
theorem LookupType.floatText_eq_of_decodeWithin {l : LookupType} {hops : Nat} {y : Binary64}
    {v : Value} {w w' w'' : World τ}
    (hbare : ((FieldType.element (.lookup l)).decodeWithin hops (.wire (.float y)) :
      Decoding τ Value).run w = (.ok v, w'))
    (hobject : ((FieldType.element (.lookup l)).decodeWithin hops (.wire (.idOnly (.float y))) :
      Decoding τ Value).run w = (.ok v, w'')) : floatText y = wireFloatText y := by
  have hread : RowRef.ofInput (.ofWire (.idOnly (.float y))) =
      .ok (some { id := wireFloatText y }) := by
    rw [RowRef.ofInput_idOnly rfl, RowRef.ofInput_string]
    show Except.ok ((Text.nonBlank? (wireFloatText y)).map _) = _
    rw [nonBlank?_wireFloatText, Option.map_some]
  have hown := eq_of_decodeWithin (RowRef.ofInput_float y) hbare
  have hmember := eq_of_decodeWithin hread hobject
  exact congrArg RowRef.id (Value.lookup.inj (hown.symm.trans hmember))

/-- A scalar on its own and an object with it as the only member are decoded as the two texts of the
scalar. The outcomes are the same exactly if the scalar is written alike, when they are equal, or
both are errors. -/
theorem scalar_is_same_reference_iff (hops : Nat) (l : LookupType) (x : Wire)
    (hx : x.isIdScalar = true) (w : World τ) :
    let decoded (x : Wire) :=
      ((FieldType.element (.lookup l)).decodeWithin hops (.wire x) : Decoding τ Value).run w
    decoded x = decoded (.string x.ownId) ∧
      decoded x.idOnly = decoded (.string x.memberId) ∧
      (x.IsWrittenAlike → decoded x = decoded x.idOnly) ∧
      (SameOutcome (decoded x).1 (decoded x.idOnly).1 ↔ x.IsWrittenAlike ∨
        (∃ e, (decoded x).1 = .error e) ∧ ∃ e, (decoded x.idOnly).1 = .error e) := by
  intro decoded
  have hown : decoded x = decoded (.string x.ownId) :=
    congrArg (·.run w) (FieldType.decodeWithin_congr hops (RowRef.ofInput_ownId hx))
  have hmember : decoded x.idOnly = decoded (.string x.memberId) :=
    congrArg (·.run w) (FieldType.decodeWithin_congr hops (RowRef.ofInput_idOnly hx))
  have hsame (halike : x.IsWrittenAlike) : decoded x = decoded x.idOnly := by
    rw [hown, hmember, (Wire.ownId_eq_memberId_iff hx).mpr halike]
  refine ⟨hown, hmember, hsame, ?_, ?_⟩
  · rintro (heq | hfail)
    · by_cases hfloat : ∀ y, x ≠ .float y
      · exact .inl fun y hy => absurd hy (hfloat y)
      · obtain ⟨y, rfl⟩ := not_forall_not.mp hfloat
        rcases hbare : decoded (.float y) with ⟨e | v, w'⟩
        · rw [hbare] at heq
          exact .inr ⟨⟨e, rfl⟩, ⟨e, heq.symm⟩⟩
        · rcases hobject : decoded (Wire.float y).idOnly with ⟨e | v', w''⟩
          · rw [hbare, hobject] at heq
            cases heq
          · rw [hbare, hobject] at heq
            cases heq
            have htext := LookupType.floatText_eq_of_decodeWithin hbare hobject
            exact .inl ((Wire.ownId_eq_memberId_iff hx).mp htext)
    · exact .inr hfail
  · rintro (halike | hfail)
    · exact .inl (congrArg Prod.fst (hsame halike))
    · exact .inr hfail

end Hops

namespace Customers

/-- The number of a customer is an id on its own and in an object. -/
theorem seven_is_same_reference :
    (Wire.int (.ofInt64 7)).isIdScalar = true ∧
      (type.decodeWithin 2 (.wire (.int (.ofInt64 7)))).run found =
        (.ok (.lookup { id := "7" }), found) ∧
      (type.decodeWithin 2 (.wire (.object [("id", .int (.ofInt64 7))]))).run found =
        (.ok (.lookup { id := "7" }), found) := by
  have hbare : (type.decodeWithin 2 (.wire (.int (.ofInt64 7)))).run found =
      (.ok (.lookup { id := "7" }), found) := by rfl
  have hsame := (scalar_is_same_reference_iff 2 (.free 0 0 "customers" .default)
    (.int (.ofInt64 7)) rfl found).2.2.1 nofun
  exact ⟨rfl, hbare, hsame.symm.trans hbare⟩

/-- Five as a float. -/
def five : Binary64 := ⟨0x4014000000000000⟩

/-- On its own it is the number of a customer, in an object it is no number. -/
theorem five_is_no_number_in_object :
    ¬(∀ (l : LookupType) (x : Wire) (w : World FoundOnce), x.isIdScalar = true →
        SameOutcome (((FieldType.element (.lookup l)).decode (.wire x)).run w).1
          (((FieldType.element (.lookup l)).decode (.wire x.idOnly)).run w).1) ∧
      (type.decode (.wire (.float five))).run found = (.ok (.lookup { id := "5" }), found) ∧
      (type.decode (.wire (.object [("id", .float five)]))).run found =
        (.error (.lookupId "5.0" (.parse "5.0" (.signed .int))), found) := by
  have hbare : (type.decode (.wire (.float five))).run found =
      (.ok (.lookup { id := "5" }), found) := by rfl
  have hobject : (type.decode (.wire (.object [("id", .float five)]))).run found =
      (.error (.lookupId "5.0" (.parse "5.0" (.signed .int))), found) := by rfl
  refine ⟨fun h => ?_, hbare, hobject⟩
  have hsame : SameOutcome ((type.decode (.wire (.float five))).run found).1
      ((type.decode (.wire (.object [("id", .float five)]))).run found).1 :=
    h (.free 0 0 "customers" .default) (.float five) found rfl
  rw [hbare, hobject] at hsame
  rcases hsame with heq | ⟨⟨e, he⟩, -⟩
  · cases heq
  · cases he

end Customers

end TenantSchema
