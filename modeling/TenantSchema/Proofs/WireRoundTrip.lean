import TenantSchema.Dataset.Field
import TenantSchema.Proofs.DecodeSteps
import TenantSchema.Proofs.DecodedValues
import TenantSchema.Value.ToWire

/-!
# Values that survive the wire

A value that a type has accepted, written to the wire and decoded by the same type, is accepted
again and comes back unchanged. That holds for booleans, integers, double-precision numbers, text
and spans of whole seconds, and for lists of these. Their types look at nothing but the input.
-/

namespace TenantSchema

open TenantSchema.Number

/-! ### Whole seconds -/

namespace Value

mutual

/-- Every span in the value is a whole number of seconds. -/
def isWhole : Value → Bool
  | .duration d => d.subsecond = 0
  | .list items => areWhole items
  | _ => true

def areWhole : List Value → Bool
  | [] => true
  | v :: rest => v.isWhole && areWhole rest

end

theorem areWhole_eq_all (items : List Value) : areWhole items = items.all isWhole := by
  induction items with
  | nil => rfl
  | cons v rest ih => rw [areWhole, ih, List.all_cons]

@[simp] theorem isWhole_list (items : List Value) :
    isWhole (.list items) = items.all isWhole := by
  rw [isWhole, areWhole_eq_all]

@[simp] theorem isWhole_duration (d : Duration) :
    isWhole (.duration d) = true ↔ d.subsecond = 0 := by
  simp [isWhole]

end Value

/-! ### Numbers on the wire -/

theorem Input.ofWire_int64 (n : Int64) : Input.ofWire (.int (.ofInt64 n)) = .value (.int n) := by
  show Input.ofWireInt (.ofInt64 n) = _
  unfold Input.ofWireInt
  rw [show (WireInt.ofInt64 n).val = n.toInt from rfl, int64?_toInt]

/-- An integer of a signed word comes back from the wire as that word. -/
theorem Input.ofWire_wireInteger {n : Int} (hmin : minInt64 ≤ n) (hmax : n ≤ maxInt64) :
    ∃ k : Int64, k.toInt = n ∧ Input.ofWire (wireInteger n) = .value (.int k) := by
  have hk : int64? n = some (Int64.ofInt n) := if_pos ⟨hmin, hmax⟩
  have hwire : minInt64 ≤ n ∧ n ≤ maxUInt64 := ⟨hmin, Int.le_trans hmax (by decide)⟩
  refine ⟨_, toInt_of_int64? hk, ?_⟩
  unfold wireInteger
  rw [WireInt.of?, dif_pos hwire]
  show Input.ofWireInt _ = _
  unfold Input.ofWireInt
  rw [hk]

/-- An integer on the wire is read as the number that it is, whether a signed word holds it or
not. -/
theorem wideInteger_ofWire (kind : Kind) (below above : String → TypeError) (k : WireInt) :
    wideInteger kind below above (.ofWire (.int k)) = .ok (some k.val) := by
  show wideInteger kind below above (Input.ofWireInt k) = _
  unfold Input.ofWireInt
  cases h : int64? k.val with
  | some i =>
    show Except.ok (some i.toInt) = _
    rw [toInt_of_int64? h]
  | none =>
    -- what no signed word holds is beyond them, and an unsigned word holds it
    have hhigh := k.le_maxUInt64
    have hlarge : maxInt64 < k.val := by
      refine Int.not_le.mp fun hle => ?_
      rw [int64?, if_pos ⟨k.minInt64_le, hle⟩] at h
      cases h
    unfold maxInt64 at hlarge
    unfold maxUInt64 at hhigh
    show Except.ok (some ((UInt64.ofNat k.val.toNat).toNat : Int)) = _
    rw [UInt64.toNat_ofNat', Nat.mod_eq_of_lt (by omega), Int.toNat_of_nonneg (by omega)]

/-! ### Scalar types -/

variable {input : Input} {v : Value}

theorem BoolType.decode_again (h : BoolType.decode input = .ok v) :
    BoolType.decode (.ofWire v.toWire) = .ok v := by
  rcases BoolType.of_decode h with rfl | ⟨b, rfl⟩ <;> rfl

theorem SignedType.decode_again {t : SignedType} (h : t.decode input = .ok v) :
    t.decode (.ofWire v.toWire) = .ok v := by
  rcases of_decode h with rfl | ⟨k, rfl, hk⟩
  · rfl
  · show t.decode (.ofWire (.int (.ofInt64 k))) = _
    rw [Input.ofWire_int64]
    show (do return Value.int (← t.accept k.toInt)) = _
    rw [hk]
    rfl

theorem UnsignedType.decode_again {t : UnsignedType} (h : t.decode input = .ok v) :
    t.decode (.ofWire v.toWire) = .ok v := by
  rcases of_decode h with rfl | ⟨k, rfl, hk⟩
  · rfl
  · show t.decode (.ofWire (.int (.ofUInt64 k))) = _
    unfold decode
    rw [wideInteger_ofWire]
    show (do return Value.uint (← t.accept k.toNat)) = _
    rw [hk]
    rfl

namespace FloatType

variable {t : FloatType}

/-- Nothing is rounded away from a double-precision number. -/
theorem decode_again (ht : t.kind.bits ≠ 32) (h : t.decode input = .ok v) :
    t.decode (.ofWire v.toWire) = .ok v := by
  rcases of_decode h with rfl | ⟨x, rfl, hx⟩
  · rfl
  · have hnormal : t.normalize x = x := if_neg ht
    rw [hnormal]
    show t.decode (.ofWire x.toWire) = _
    unfold Binary64.toWire
    rw [if_pos (isFinite_of_check hx)]
    show (do t.check x; return Value.float (t.normalize x)) = _
    rw [hx, hnormal]
    rfl

end FloatType

theorem TextType.decode_again {t : TextType} (h : t.decode input = .ok v) :
    t.decode (.ofWire v.toWire) = .ok v := by
  rcases of_decode h with rfl | ⟨s, rfl, hs⟩
  · rfl
  · show (do t.check s; return Value.text s) = _
    rw [hs]
    rfl

/-! ### Spans -/

section Whole

variable {d : Duration} (h : d.subsecond = 0)

include h

theorem Duration.seconds_mul_second : d.seconds * second = d.nanos := by
  have hn := d.seconds_add_subsecond
  rwa [h, Int.add_zero] at hn

/-- A span of whole seconds is the span of its seconds. -/
theorem Duration.ofSeconds?_seconds : ofSeconds? d.seconds = some d := by
  unfold ofSeconds?
  rw [seconds_mul_second h, ofNanos?_nanos]

theorem Duration.ofWire_toWire :
    ∃ k : Int64, k.toInt = d.seconds ∧ Input.ofWire d.toWire = .value (.int k) := by
  have hlow := d.neg_max_le
  have hhigh := d.le_max
  have hn : d.seconds * 1000000000 = d.nanos := seconds_mul_second h
  unfold maxDuration maxInt64 at hlow hhigh
  have hmin : minInt64 ≤ d.seconds := by
    unfold minInt64
    omega
  have hmax : d.seconds ≤ maxInt64 := by
    unfold maxInt64
    omega
  have hwire : d.toWire = wireInteger d.seconds := if_pos h
  rw [hwire]
  exact Input.ofWire_wireInteger hmin hmax

end Whole

theorem DurationType.decode_again {t : DurationType} (h : t.decode input = .ok v)
    (hv : v.isWhole = true) : t.decode (.ofWire v.toWire) = .ok v := by
  obtain ⟨span, rfl, hvalid⟩ := of_decode h
  have hspan : DurationType.span (.ofWire (valueOf span).toWire) = .ok span := by
    cases span with
    | none => rfl
    | some d =>
      have hd : d.subsecond = 0 := (Value.isWhole_duration d).mp hv
      obtain ⟨k, hk, hwire⟩ := Duration.ofWire_toWire hd
      show DurationType.span (.ofWire d.toWire) = _
      rw [hwire]
      show ofNumber _ (Duration.ofSeconds? k.toInt) = _
      rw [hk, Duration.ofSeconds?_seconds hd]
      rfl
  unfold decode
  rw [hspan]
  show (do t.validate (valueOf span); return valueOf span) = _
  rw [hvalid]
  rfl

/-! ### Elements and lists -/

/-- A decoder that looks at nothing but the input, and decodes what it has decoded once more. -/
structure ElementType.Durable (e : ElementType) (dec : Input → Except TypeError Value)
    (check : Value → Except TypeError Unit) : Prop where
  decode : ∀ {τ : Type} (follow : LookupType → RowRef → Decoding τ Value) (input : Input),
    e.decode follow input = liftExcept (dec input)
  validate : ∀ {τ : Type} (follow : LookupType → RowRef → Decoding τ Value) (v : Value),
    e.validate follow v = liftExcept (check v)
  again : ∀ input v, dec input = .ok v → v.isWhole = true → dec (.ofWire v.toWire) = .ok v

/-- The types whose values survive the wire. Single-precision numbers do so too, but they are
rounded on the way. -/
def ElementType.isPlain : ElementType → Bool
  | .bool | .signed _ | .unsigned _ | .text _ | .duration _ => true
  | .float t => t.kind.bits ≠ 32
  | _ => false

theorem ElementType.durable {e : ElementType} (h : e.isPlain = true) :
    ∃ dec check, e.Durable dec check := by
  cases e with
  | bool =>
    exact ⟨BoolType.decode, BoolType.validate, fun _ _ => rfl, fun _ _ => rfl,
      fun _ _ hd _ => BoolType.decode_again hd⟩
  | signed t =>
    exact ⟨t.decode, t.validate, fun _ _ => rfl, fun _ _ => rfl, fun _ _ hd _ => t.decode_again hd⟩
  | unsigned t =>
    exact ⟨t.decode, t.validate, fun _ _ => rfl, fun _ _ => rfl, fun _ _ hd _ => t.decode_again hd⟩
  | float t =>
    have ht : t.kind.bits ≠ 32 := of_decide_eq_true h
    exact ⟨t.decode, t.validate, fun _ _ => rfl, fun _ _ => rfl,
      fun _ _ hd _ => t.decode_again ht hd⟩
  | text t =>
    exact ⟨t.decode, t.validate, fun _ _ => rfl, fun _ _ => rfl, fun _ _ hd _ => t.decode_again hd⟩
  | duration t =>
    exact ⟨t.decode, t.validate, fun _ _ => rfl, fun _ _ => rfl,
      fun _ _ hd hv => t.decode_again hd hv⟩
  | _ => cases h

section Lists

variable {α β τ : Type}

theorem liftExcept_bind (a : Except TypeError α) (f : α → Except TypeError β) :
    (liftExcept (a >>= f) : Decoding τ β) = liftExcept a >>= fun x => liftExcept (f x) := by
  cases a <;> rfl

theorem liftExcept_mapM (g : α → Except TypeError β) (l : List α) :
    (liftExcept (l.mapM g) : Decoding τ (List β)) = l.mapM fun a => liftExcept (g a) := by
  induction l with
  | nil => rfl
  | cons a l ih =>
    rw [List.mapM_cons, List.mapM_cons, liftExcept_bind]
    simp only [liftExcept_bind, ih]
    rfl

theorem liftExcept_forM (g : α → Except TypeError Unit) (l : List α) :
    (liftExcept (l.forM g) : Decoding τ Unit) = l.forM fun a => liftExcept (g a) := by
  induction l with
  | nil => rfl
  | cons a l ih =>
    show liftExcept (g a >>= fun _ => l.forM g) = _
    rw [liftExcept_bind, ih]
    rfl

/-- Items that were decoded one by one are decoded again one by one. -/
theorem mapM_again {dec : Input → Except TypeError Value}
    (hagain : ∀ input v, dec input = .ok v → v.isWhole = true → dec (.ofWire v.toWire) = .ok v)
    {inputs : List Input} {vs : List Value} (h : inputs.mapM dec = .ok vs)
    (hv : vs.all Value.isWhole = true) :
    (vs.map fun v => Input.ofWire v.toWire).mapM dec = .ok vs := by
  induction inputs generalizing vs with
  | nil =>
    cases h
    rfl
  | cons input inputs ih =>
    rw [List.mapM_cons] at h
    obtain ⟨v, hd, h⟩ := ok_of_bind h
    obtain ⟨rest, hrest, h⟩ := ok_of_bind h
    cases h
    rw [List.all_cons, Bool.and_eq_true] at hv
    rw [List.map_cons, List.mapM_cons, hagain input v hd hv.1, ih hrest hv.2]
    rfl

end Lists

/-- Likewise for the type of a field. -/
structure FieldType.Durable (t : FieldType) (dec : Input → Except TypeError Value) : Prop where
  decode : ∀ {τ : Type} (follow : LookupType → RowRef → Decoding τ Value) (input : Input),
    t.decodeBy follow input = liftExcept (dec input)
  again : ∀ input v, dec input = .ok v → v.isWhole = true → dec (.ofWire v.toWire) = .ok v

namespace FieldType

def isPlain : FieldType → Bool
  | .element e => e.isPlain
  | .list e => e.isPlain

variable {e : ElementType} {dec : Input → Except TypeError Value}
  {check : Value → Except TypeError Unit}

theorem durable_element (h : e.Durable dec check) :
    (FieldType.element e).Durable fun input => do
      let v ← dec input
      check v
      return v where
  decode follow input := by
    show (do
      let v ← e.decode follow input
      e.validate follow v
      return v) = _
    simp only [liftExcept_bind, h.decode, h.validate]
    rfl
  again input v hd hv := by
    obtain ⟨v', hd, hr⟩ := ok_of_bind hd
    obtain ⟨_, hc, hr⟩ := ok_of_bind hr
    cases hr
    rw [h.again input v hd hv]
    show (do check v; return v) = _
    rw [hc]
    rfl

theorem durable_list (h : e.Durable dec check) :
    (FieldType.list e).Durable fun input => do
      match ← items input with
      | none => return .null
      | some inputs =>
        let vs ← inputs.mapM dec
        vs.forM check
        return .list vs where
  decode follow input := by
    unfold decodeBy decodeInput
    dsimp only
    cases items input with
    | error err => rfl
    | ok found =>
      cases found with
      | none => rfl
      | some inputs =>
        show (do
          let v ← (do return Value.list (← inputs.mapM (e.decode follow ·)))
          (FieldType.list e).validateBy follow v
          return v) = liftExcept (do
            let vs ← inputs.mapM dec
            vs.forM check
            return Value.list vs)
        simp only [liftExcept_bind, liftExcept_mapM, liftExcept_forM, h.decode, bind_assoc,
          pure_bind]
        simp only [← h.validate follow]
        rfl
  again input v hd hv := by
    obtain ⟨found, -, hd⟩ := ok_of_bind hd
    cases found with
    | none =>
      cases hd
      rfl
    | some inputs =>
      obtain ⟨vs, hvs, hd⟩ := ok_of_bind hd
      obtain ⟨_, hc, hd⟩ := ok_of_bind hd
      cases hd
      rw [Value.isWhole_list] at hv
      have hmap := mapM_again h.again hvs hv
      rw [Value.toWire_list]
      show (do
        let vs ← ((vs.map Value.toWire).map Input.ofWire).mapM dec
        vs.forM check
        return Value.list vs) = _
      rw [List.map_map]
      show (do
        let vs ← (vs.map fun v : Value => Input.ofWire v.toWire).mapM dec
        vs.forM check
        return Value.list vs) = _
      rw [hmap]
      show (do vs.forM check; return Value.list vs) = _
      rw [hc]
      rfl

theorem durable {t : FieldType} (h : t.isPlain = true) : ∃ dec, t.Durable dec := by
  cases t with
  | element e =>
    obtain ⟨dec, check, he⟩ := ElementType.durable h
    exact ⟨_, durable_element he⟩
  | list e =>
    obtain ⟨dec, check, he⟩ := ElementType.durable h
    exact ⟨_, durable_list he⟩

/-- A value that a plain type has given survives the wire, wherever it is decoded again. -/
theorem Gives.again {t : FieldType} (h : t.Gives v) (ht : t.isPlain = true)
    (hv : v.isWhole = true) {τ : Type} (follow : LookupType → RowRef → Decoding τ Value)
    (w : World τ) : (t.decodeBy follow (.ofWire v.toWire)).run w = (.ok v, w) := by
  obtain ⟨dec, hdec⟩ := durable ht
  obtain ⟨_, _, input, _, hgiven⟩ := h
  rw [hdec.decode, run_liftExcept] at hgiven
  rw [hdec.decode, run_liftExcept, hdec.again input v hgiven hv]

end FieldType

/-! ### Field definitions -/

/-- The scalar kinds whose values survive the wire unchanged. -/
def Kind.isPlain : Kind → Bool
  | .bool | .signed _ | .unsigned _ | .text _ | .duration => true
  | .float k => k ≠ .float32
  | _ => false

/-- The field is of such a kind or holds lists of one. -/
def FieldSpec.isPlain (spec : FieldSpec) : Bool :=
  if spec.resolvedKind = .list then ((spec.typeSpec.map TypeSpec.kind).getD Kind.none).isPlain
  else spec.resolvedKind.isPlain

theorem ElementType.isPlain_ofKind (cell : Cell) {kind : Kind} (h : kind.isPlain = true)
    (spec : Option TypeSpec) (ctx : TypeContext) : (ofKind cell kind spec ctx).isPlain = true := by
  cases kind with
  | float k => cases k <;> first | rfl | cases h
  | none => cases h
  | list => cases h
  | binary => cases h
  | lookup => cases h
  | datetime => cases h
  | _ => rfl

/-- Constraints do not matter. -/
theorem Field.isPlain_type {f : Field} (h : f.spec.isPlain = true) : f.type.isPlain = true := by
  unfold FieldSpec.isPlain at h
  unfold Field.type FieldType.ofSpec FieldType.ofKind
  split at h
  · next hk =>
    rw [if_pos hk]
    exact ElementType.isPlain_ofKind _ h _ _
  · next hk =>
    rw [if_neg hk]
    exact ElementType.isPlain_ofKind _ h _ _

end TenantSchema
