import TenantSchema.Proofs.DecodedValues
import TenantSchema.Proofs.SettledDecoding
import TenantSchema.Proofs.SinglePrecision
import TenantSchema.Proofs.TrimmedText

/-!
# Decoding what was decoded

A value that a type has given is valid for the type, and decoding it once more gives it again: in
every later world, whatever has become of the dictionaries by then. References are followed for any
number of hops.
-/

namespace TenantSchema

open TenantSchema.Number

/-! ### Scalars -/

section Scalars

variable {input : Input} {v : Value}

theorem BoolType.decode_ofValue (h : BoolType.decode input = .ok v) :
    BoolType.decode (.ofValue v) = .ok v := by
  rcases of_decode h with rfl | ⟨b, rfl⟩ <;> rfl

theorem SignedType.decode_ofValue {t : SignedType} (h : t.decode input = .ok v) :
    t.decode (.ofValue v) = .ok v := by
  rcases of_decode h with rfl | ⟨k, rfl, hk⟩
  · rfl
  · show (do return Value.int (← t.accept k.toInt)) = _
    rw [hk]
    rfl

theorem UnsignedType.decode_ofValue {t : UnsignedType} (h : t.decode input = .ok v) :
    t.decode (.ofValue v) = .ok v := by
  rcases of_decode h with rfl | ⟨k, rfl, hk⟩
  · rfl
  · show (do return Value.uint (← t.accept k.toNat)) = _
    rw [hk]
    rfl

theorem FloatType.normalize_normalize (t : FloatType) (x : Binary64) :
    t.normalize (t.normalize x) = t.normalize x := by
  unfold normalize
  split
  · exact x.toSingle_toSingle
  · rfl

/-- Rounding may carry a number across a bound, which is why the value itself has to be valid. -/
theorem FloatType.decode_ofValue {t : FloatType} (h : t.decode input = .ok v)
    (hv : t.validate v = .ok ()) : t.decode (.ofValue v) = .ok v := by
  rcases of_decode h with rfl | ⟨x, rfl, -⟩
  · rfl
  · have hcheck : t.check (t.normalize x) = .ok () := hv
    show (do t.check (t.normalize x); return Value.float (t.normalize (t.normalize x))) = _
    rw [hcheck, t.normalize_normalize]
    rfl

theorem BinaryType.decode_ofValue {t : BinaryType} (h : t.decode input = .ok v) :
    t.decode (.ofValue v) = .ok v := by
  rcases of_decode h with rfl | ⟨content, rfl, hcheck⟩
  · rfl
  · show (do t.check content; return Value.binary content) = _
    rw [hcheck]
    rfl

theorem TextType.decode_ofValue {t : TextType} (h : t.decode input = .ok v) :
    t.decode (.ofValue v) = .ok v := by
  rcases of_decode h with rfl | ⟨s, rfl, hcheck⟩
  · rfl
  · show (do t.check s; return Value.text s) = _
    rw [hcheck]
    rfl

theorem DatetimeType.decode_ofValue {t : DatetimeType} (h : t.decode input = .ok v) :
    t.decode (.ofValue v) = .ok v := by
  rcases of_decode h with rfl | ⟨i, rfl⟩ <;> rfl

theorem DurationType.decode_ofValue {t : DurationType} (h : t.decode input = .ok v) :
    t.decode (.ofValue v) = .ok v := by
  obtain ⟨span, rfl, hvalid⟩ := of_decode h
  have hspan : DurationType.span (.ofValue (valueOf span)) = .ok span := by cases span <;> rfl
  unfold decode
  rw [hspan]
  show (do t.validate (valueOf span); return valueOf span) = _
  rw [hvalid]
  rfl

end Scalars

/-! ### References -/

namespace RowRef

open Text

theorem isTrimmed_memberText {member : Wire} {text : String} (h : memberText? member = some text) :
    IsTrimmed text := by
  cases member with
  | null =>
    cases h
    rfl
  | string s =>
    cases h
    exact isTrimmed_trim s
  | int n =>
    cases h
    exact isTrimmed_intText n.val
  | float x =>
    cases h
    exact isTrimmed_wireFloatText x
  | bool b =>
    cases h
    cases b <;> rfl
  | array _ => cases h
  | object _ => cases h

/-- All members are trimmed. -/
structure Trimmed (r : RowRef) : Prop where
  id : IsTrimmed r.id
  name : IsTrimmed r.name
  typePath : IsTrimmed r.typePath

theorem Trimmed.withMember {r r' : RowRef} {name text : String} (hr : r.Trimmed)
    (ht : IsTrimmed text) (h : r.withMember? name text = some r') : r'.Trimmed := by
  unfold withMember? at h
  split at h
  · cases h
    exact ⟨ht, hr.name, hr.typePath⟩
  · cases h
    exact ⟨hr.id, ht, hr.typePath⟩
  · cases h
    exact ⟨hr.id, hr.name, ht⟩
  · cases h

theorem Trimmed.ofMembers {r r' : RowRef} {members : WireMap} (hr : r.Trimmed)
    (h : r.ofMembers members = .ok r') : r'.Trimmed := by
  induction members generalizing r with
  | nil =>
    cases h
    exact hr
  | cons member rest ih =>
    obtain ⟨name, w⟩ := member
    rw [RowRef.ofMembers] at h
    split at h
    · next next hnext =>
      obtain ⟨text, htext, hnext⟩ := Option.bind_eq_some_iff.mp hnext
      exact ih (hr.withMember (isTrimmed_memberText htext) hnext) h
    · cases h

theorem nonEmpty?_eq_some {r r' : RowRef} (h : r.nonEmpty? = some r') : r' = r := by
  unfold nonEmpty? at h
  split at h
  · cases h
  · cases h
    rfl

/-- A reference that was read is trimmed, apart from the name and the type of one that was given as
a value. -/
theorem trimmed_of_ofInput {input : Input} {r : RowRef} (h : ofInput input = .ok (some r)) :
    r.Trimmed ∨ ∃ given, input = .value (.lookup given) ∧
      r = { given with id := Text.trim given.id } := by
  have hblank : IsTrimmed "" := rfl
  unfold ofInput at h
  split at h
  · cases h
  · next given => exact .inr ⟨given, rfl, nonEmpty?_eq_some (Except.ok.inj h)⟩
  · next s =>
    obtain ⟨id, hid, hr⟩ := Option.map_eq_some_iff.mp (Except.ok.inj h)
    cases hr
    exact .inl ⟨isTrimmed_of_nonBlank? hid, hblank, hblank⟩
  · cases h
    exact .inl ⟨isTrimmed_intText _, hblank, hblank⟩
  · cases h
    exact .inl ⟨isTrimmed_natText _, hblank, hblank⟩
  · cases h
    exact .inl ⟨isTrimmed_floatText _, hblank, hblank⟩
  · next members =>
    cases hm : RowRef.ofMembers {} members with
    | error e =>
      rw [hm] at h
      cases h
    | ok r₀ =>
      rw [hm] at h
      rw [nonEmpty?_eq_some (Except.ok.inj h)]
      have hnone : Trimmed {} := ⟨hblank, hblank, hblank⟩
      exact .inl (hnone.ofMembers hm)
  · cases h

/-- The id of a reference that was read is trimmed, whatever it was read from. -/
theorem isTrimmed_id_ofInput {input : Input} {r : RowRef} (h : ofInput input = .ok (some r)) :
    IsTrimmed r.id := by
  rcases trimmed_of_ofInput h with htrimmed | ⟨given, -, rfl⟩
  · exact htrimmed.id
  · exact isTrimmed_trim given.id

theorem isEmpty_of_nonBlank? {r : RowRef} {id : String} (hid : nonBlank? r.id = some id) :
    r.isEmpty = false := by
  unfold isEmpty
  cases hempty : r.id.isEmpty with
  | false => rfl
  | true =>
    rw [String.isEmpty_iff.mp hempty, nonBlank?_empty] at hid
    cases hid

/-- A reference with a trimmed id that is not blank is read as it is. -/
theorem ofInput_lookup {r : RowRef} {id : String} (ht : IsTrimmed r.id)
    (hid : nonBlank? r.id = some id) : ofInput (.value (.lookup r)) = .ok (some r) := by
  have hsame : { r with id := Text.trim r.id } = r := by rw [show Text.trim r.id = r.id from ht]
  unfold ofInput
  dsimp only
  rw [hsame, nonEmpty?, isEmpty_of_nonBlank? hid]
  rfl

end RowRef

section Read

variable {τ : Type} {follow : LookupType → RowRef → Decoding τ Value} {l : LookupType}
  {input : Input} {v : Value} {w w' : World τ}

/-- A reference type reads nothing, gives null and does nothing, or it gives the reference that it has
read and takes. -/
theorem LookupType.decode_cases (h : (l.decode follow input).run w = (.ok v, w')) :
    RowRef.ofInput input = .ok none ∧ v = .null ∧ w' = w ∨
      ∃ r, RowRef.ofInput input = .ok (some r) ∧ v = .lookup r ∧
        (l.check follow r).run w = (.ok (), w') := by
  obtain ⟨found, w₁, hfound, h⟩ := run_bind_ok h
  have hread : RowRef.ofInput input = .ok found := congrArg Prod.fst hfound
  obtain rfl : w = w₁ := congrArg Prod.snd hfound
  cases found with
  | none =>
    cases h
    exact .inl ⟨hread, rfl, rfl⟩
  | some r =>
    obtain ⟨_, w₂, hcheck, h⟩ := run_bind_ok h
    cases h
    exact .inr ⟨r, hread, rfl, hcheck⟩

/-- A reference that is taken has an id, which has been followed. -/
theorem LookupType.check_run {r : RowRef} (h : (l.check follow r).run w = (.ok (), w')) :
    ∃ id x, Text.nonBlank? r.id = some id ∧ (follow l r).run w = (.ok x, w') := by
  unfold LookupType.check at h
  split at h
  · cases h
  · next id hid =>
    obtain ⟨x, w₁, hx, hrest⟩ := run_bind_ok h
    cases hrest
    exact ⟨id, x, hid, hx⟩

end Read

section Follow

variable {τ : Type} {follow : LookupType → RowRef → Decoding τ Value}
  (hfollow : ∀ l r, Steady (follow l r)) {input : Input} {v : Value} {w w' : World τ}

include hfollow

theorem LookupType.settled_decode {l : LookupType}
    (h : (l.decode follow input).run w = (.ok v, w')) :
    Settled w' (l.decode follow (.ofValue v)) v := by
  rcases decode_cases h with ⟨-, rfl, -⟩ | ⟨r, hread, rfl, hcheck⟩
  · exact Settled.pure w' Value.null
  · obtain ⟨id, x, hid, -⟩ := check_run hcheck
    have hagain : RowRef.ofInput (.ofValue (.lookup r)) = .ok (some r) :=
      RowRef.ofInput_lookup (RowRef.isTrimmed_id_ofInput hread) hid
    have hsettled : Settled w' (l.check follow r) () :=
      ((Steady.sequential.within _).lookupCheck (hfollow l) r w () w' hcheck).2
    unfold LookupType.decode
    rw [hagain]
    exact hsettled.bind (Settled.pure w' (Value.lookup r))

/-! ### Elements and lists -/

/-- An element that was decoded and is valid is decoded again. -/
theorem ElementType.settled_decode {e : ElementType}
    (hd : (e.decode follow input).run w = (.ok v, w')) {w'' : World τ} (hw : w'.Remembers w'')
    (hv : Settled w'' (e.validate follow v) ()) : Settled w'' (e.decode follow (.ofValue v)) v := by
  have hscalar {dec : Input → Except TypeError Value} {check : Value → Except TypeError Unit}
      (hd : (liftExcept (dec input) : Decoding τ Value).run w = (.ok v, w'))
      (hv : Settled w'' (liftExcept (check v) : Decoding τ Unit) ())
      (hagain : dec input = .ok v → check v = .ok () → dec (.ofValue v) = .ok v) :
      Settled w'' (liftExcept (dec (.ofValue v)) : Decoding τ Value) v := by
    have hvalid := hv w'' (Std.Refl.refl (r := World.Remembers) w'')
    rw [run_liftExcept] at hd hvalid
    exact Settled.ofExcept (hagain (congrArg Prod.fst hd) (congrArg Prod.fst hvalid))
  cases e with
  | undefined cause => cases hd
  | bool => exact hscalar hd hv fun h _ => BoolType.decode_ofValue h
  | signed t => exact hscalar hd hv fun h _ => SignedType.decode_ofValue h
  | unsigned t => exact hscalar hd hv fun h _ => UnsignedType.decode_ofValue h
  | float t => exact hscalar hd hv fun h hv => FloatType.decode_ofValue h hv
  | binary t => exact hscalar hd hv fun h _ => BinaryType.decode_ofValue h
  | text t => exact hscalar hd hv fun h _ => TextType.decode_ofValue h
  | datetime t => exact hscalar hd hv fun h _ => DatetimeType.decode_ofValue h
  | duration t => exact hscalar hd hv fun h _ => DurationType.decode_ofValue h
  | lookup l => exact (LookupType.settled_decode hfollow hd).later hw

theorem FieldType.settled_validateBy {t : FieldType}
    (h : (t.decodeBy follow input).run w = (.ok v, w')) :
    Settled w' (t.validateBy follow v) () := by
  obtain ⟨v₁, w₁, -, h⟩ := run_bind_ok h
  obtain ⟨_, w₂, hvalid, h⟩ := run_bind_ok h
  cases h
  exact ((Steady.sequential.within _).validateBy (fun l _ => hfollow l) v w₁ () w' hvalid).2

theorem FieldType.settled_decodeInput {t : FieldType}
    (h : (t.decodeBy follow input).run w = (.ok v, w')) :
    Settled w' (t.decodeInput follow (.ofValue v)) v := by
  have hvalidated := settled_validateBy hfollow h
  obtain ⟨v₁, w₁, hdecoded, h⟩ := run_bind_ok h
  obtain ⟨_, w₂, hvalid, h⟩ := run_bind_ok h
  cases h
  have hw : w₁.Remembers w' := ((Steady.sequential.within _).validateBy (fun l _ => hfollow l) v w₁ () w' hvalid).1
  cases t with
  | element e => exact ElementType.settled_decode hfollow hdecoded hw hvalidated
  | list e =>
    obtain ⟨inputs, w₀, hitems, hdecoded⟩ := run_bind_ok hdecoded
    cases inputs with
    | none =>
      cases hdecoded
      exact Settled.pure w' Value.null
    | some inputs =>
      obtain ⟨vs, w₂, hvs, hdecoded⟩ := run_bind_ok hdecoded
      cases hdecoded
      have heach := exists_run_of_mapM ((Steady.sequential.within _).elementDecode fun l _ => hfollow l) hvs
      have hchecked := settled_of_forM ((Steady.sequential.within _).elementValidate fun l _ => hfollow l) hvalid
      have hlist : Settled w' ((vs.map Input.ofValue).mapM (e.decode follow ·)) vs := by
        refine Settled.mapM fun v hv => ?_
        obtain ⟨input, w₃, w₄, hrun, hlater⟩ := heach v hv
        exact ElementType.settled_decode hfollow hrun
          (IsTrans.trans (r := World.Remembers) _ _ _ hlater hw) (hchecked v hv)
      exact hlist.bind (Settled.pure w' (Value.list vs))

theorem FieldType.settled_decodeBy {t : FieldType}
    (h : (t.decodeBy follow input).run w = (.ok v, w')) :
    Settled w' (t.decodeBy follow (.ofValue v)) v :=
  (settled_decodeInput hfollow h).bind
    ((settled_validateBy hfollow h).bind (Settled.pure w' v))

end Follow

/-! ### Any number of hops -/

section Hops

variable {τ : Type} [DictionarySource τ]

/-- The normalized value of a source, with references followed for so many hops. -/
def FieldType.decodeWithin (hops : Nat) (t : FieldType) (source : Source) : Decoding τ Value :=
  t.decodeBy (fun l r => l.typedIdWithin r hops) source.input

def FieldType.validateWithin (hops : Nat) (t : FieldType) (v : Value) : Decoding τ Unit :=
  t.validateBy (fun l r => l.typedIdWithin r hops) v

theorem FieldType.decodeWithin_depth (t : FieldType) (source : Source) :
    (t.decodeWithin (DictionarySource.depth τ + 1) source : Decoding τ Value) = t.decode source := rfl

theorem FieldType.validateWithin_depth (t : FieldType) (v : Value) :
    (t.validateWithin (DictionarySource.depth τ + 1) v : Decoding τ Unit) = t.validate v := rfl

/-- What a type has given for a source is valid and decodes to itself, at once and in every world
that still remembers the targets found on the way; no dictionary is asked for any more. -/
theorem FieldType.decoded_value_is_settled (hops : Nat) (t : FieldType) (source : Source)
    {w w' : World τ} {v : Value}
    (h : (t.decodeWithin hops source : Decoding τ Value).run w = (.ok v, w')) :
    ∀ later : World τ, w'.Remembers later →
      (t.validateWithin hops v : Decoding τ Unit).run later = (.ok (), later) ∧
        (t.decodeWithin hops (.value v) : Decoding τ Value).run later = (.ok v, later) := by
  have hfollow (l : LookupType) (r : RowRef) : Steady (l.typedIdWithin r hops : Decoding τ Value) :=
    Steady.sequential.typedIdWithin Steady.resolve (Steady.throw _) hops l r
  exact fun later hlater =>
    ⟨settled_validateBy hfollow h later hlater, settled_decodeBy hfollow h later hlater⟩

end Hops

/-! ### Orders by customer -/

/-- Dictionaries that are found once, in this order, whatever is looked up. -/
structure FoundOnce where
  answers : List FoundDictionary

instance : DictionarySource FoundOnce where
  find _ _ _ := fun s =>
    match s.answers with
    | [] => (.ok none, s)
    | d :: rest => (.ok (some d), ⟨rest⟩)
  depth := 8

/-- A world in which no dictionary is ever found. -/
def noDictionaries : World FoundOnce where
  store := ⟨[]⟩

namespace Orders

/-- Customers are known by a number of one byte, and orders by their customer. -/
def customers : Target := ⟨"customers", "id", .element (.signed (.withBits .int 8 none))⟩

def orders : Target := ⟨"orders", "customer", .element (.lookup (.free 1 0 "customers" .default))⟩

def type : FieldType := .list (.lookup (.free 0 0 "orders" .default))

def source : Source :=
  .wire (.array [.string " 7 ", .object [("ID", .int (.ofInt64 (-12)))], .null])

def given : Value := .list [.lookup { id := "7" }, .lookup { id := "-12" }, .null]

/-- The dictionaries can be found once. -/
def before : World FoundOnce where
  store := ⟨[⟨"orders", some ("customer", orders.idType)⟩,
    ⟨"customers", some ("id", customers.idType)⟩]⟩

/-- Both were found, and none is left. -/
def found : World FoundOnce where
  targets := [(.free 1, customers), (.free 0, orders)]
  store := ⟨[]⟩

theorem given_is_settled :
    (type.decodeWithin 2 source).run before = (.ok given, found) ∧
      ∀ later : World FoundOnce, found.Remembers later →
        (type.validateWithin 2 given).run later = (.ok (), later) ∧
          (type.decodeWithin 2 (.value given)).run later = (.ok given, later) := by
  have h : (type.decodeWithin 2 source).run before = (.ok given, found) := by rfl
  exact ⟨h, FieldType.decoded_value_is_settled 2 type source h⟩

end Orders

end TenantSchema
