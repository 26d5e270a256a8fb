import TenantSchema.Proofs.Assoc
import TenantSchema.Spec.Printer
import TenantSchema.Spec.Reader

/-!
# Specs and their wire form

A printed spec leaves out the members that have their default, and reading puts the defaults back.
What is printed as null is lost: an infinite limit of a float comes back as no limit. Main
statement: a dataset spec is read back as it was exactly when the limits of its floats are finite.
-/

namespace TenantSchema

open TenantSchema.Number

/-! ### Objects with members left out -/

section Slots

/-- The members that are shown, of all that an object can have. -/
def shownMembers (slots : List (String × Option Wire)) : WireMap :=
  slots.filterMap fun slot => slot.2.map (slot.1, ·)

@[simp] theorem shownMembers_nil : shownMembers [] = [] := rfl

@[simp] theorem shownMembers_none (name : String) (slots : List (String × Option Wire)) :
    shownMembers ((name, none) :: slots) = shownMembers slots := rfl

@[simp] theorem shownMembers_some (name : String) (w : Wire) (slots : List (String × Option Wire)) :
    shownMembers ((name, some w) :: slots) = (name, w) :: shownMembers slots := rfl

theorem get?_shownMembers {slots : List (String × Option Wire)} (h : (slots.map (·.1)).Nodup)
    (name : String) : WireMap.get? (shownMembers slots) name = (slots.lookup name).join := by
  induction slots with
  | nil => rfl
  | cons slot rest ih =>
    obtain ⟨key, shown⟩ := slot
    obtain ⟨hkey, hrest⟩ := List.nodup_cons.mp h
    have ih := ih hrest
    by_cases hname : name = key
    · subst hname
      cases shown with
      | some w => simp [WireMap.get?]
      | none =>
        -- the name stands nowhere else
        have hnone : rest.lookup name = none := by
          rw [List.lookup_eq_none_iff]
          intro e he
          have hne : name ≠ e.1 := fun heq =>
            hkey (List.mem_map.mpr ⟨e, he, heq.symm⟩)
          simpa using hne
        rw [shownMembers_none, ih, hnone]
        simp
    · have hne : (name == key) = false := beq_eq_false_iff_ne.mpr hname
      rw [List.lookup_cons, hne, ← ih]
      cases shown with
      | none => rfl
      | some w => simp [WireMap.get?, List.lookup_cons, hne]

/-- What a member is read as that may have been left out. -/
def readSlot? {α : Type} (read : Wire → Option α) (default : α) : Option Wire → Option α
  | none => some default
  | some w => read w

@[simp] theorem readSlot?_some {α : Type} (read : Wire → Option α) (default : α) (w : Wire) :
    readSlot? read default (some w) = read w := rfl

theorem readMember?_shownMembers {α : Type} (read : Wire → Option α) (default : α)
    {slots : List (String × Option Wire)} (h : (slots.map (·.1)).Nodup) (name : String) :
    readMember? read default (shownMembers slots) name =
      readSlot? read default (slots.lookup name).join := by
  rw [readMember?, get?_shownMembers h]
  cases (slots.lookup name).join <;> rfl

end Slots

/-! ### Single members -/

section Members

def shownText (s : String) : Option Wire := if s.isEmpty then none else some (.string s)

def shownFlag (b : Bool) : Option Wire := if b then some (.bool true) else none

def shownKind (k : Kind) : Option Wire := if k.isNone then none else some (.string k.name)

theorem textMember_eq (name s : String) :
    textMember name s = shownMembers [(name, shownText s)] := by
  unfold textMember shownText
  split <;> rfl

theorem flagMember_eq (name : String) (b : Bool) :
    flagMember name b = shownMembers [(name, shownFlag b)] := by
  cases b <;> rfl

theorem optionMember_eq {α : Type} (name : String) (write : α → Wire) (o : Option α) :
    optionMember name write o = shownMembers [(name, o.map write)] := by
  cases o <;> rfl

theorem kindMember_eq (k : Kind) :
    (if k.isNone then [] else [("kind", Wire.string k.name)]) =
      shownMembers [("kind", shownKind k)] := by
  unfold shownKind
  split <;> rfl

theorem shownMembers_append (slots more : List (String × Option Wire)) :
    shownMembers slots ++ shownMembers more = shownMembers (slots ++ more) :=
  (List.filterMap_append).symm

@[simp] theorem readSlot?_text (s : String) : readSlot? readString? "" (shownText s) = some s := by
  unfold shownText
  split
  · next h => rw [String.isEmpty_iff.mp h]; rfl
  · rfl

@[simp] theorem readSlot?_flag (b : Bool) : readSlot? readBool? false (shownFlag b) = some b := by
  cases b <;> rfl

theorem Kind.ofName?_name (k : Kind) : Kind.ofName? k.name = some k := by
  have hkey : ∀ k ∈ Kind.all, Text.lowerAscii (Text.trim k.name) = k.name := by decide
  unfold Kind.ofName?
  rw [hkey k (Kind.mem_all k)]
  refine find?_eq_some_of_unique (Kind.mem_all k) (by simp) fun other _ hname => ?_
  exact Kind.name_injective (by simpa using hname)

@[simp] theorem readSlot?_kind (k : Kind) : readSlot? readKind? .none (shownKind k) = some k := by
  unfold shownKind
  split
  · next h => rw [eq_of_beq h]; rfl
  · rw [readSlot?_some, readKind?]
    exact k.ofName?_name

/-- A value that is read back as `keep` says, or left out. -/
theorem readSlot?_option {α β : Type} {write : α → Wire} {read : Wire → Option β}
    {keep : α → Option β} (h : ∀ a, readOption? read (write a) = some (keep a)) (o : Option α) :
    readSlot? (readOption? read) none (o.map write) = some (o.bind keep) := by
  cases o with
  | none => rfl
  | some a => exact h a

end Members

/-! ### Limits of types -/

section Limits

theorem readOption?_signed (n : Int64) : readOption? readInt64? (signedWire n) = some (some n) := by
  show (int64? n.toInt).map some = _
  rw [int64?_toInt]
  rfl

theorem readOption?_unsigned (n : UInt64) :
    readOption? readUInt64? (unsignedWire n) = some (some n) := by
  show (uint64? n.toNat).map some = _
  rw [uint64?_toNat]
  rfl

/-- The limit that a printed limit is read as. -/
def Number.Binary64.shown (x : Binary64) : Option Binary64 := if x.isFinite then some x else none

theorem readOption?_float (x : Binary64) : readOption? readBinary64? x.toWire = some x.shown := by
  unfold Binary64.toWire Binary64.shown
  split <;> rfl

theorem Bounds.ofWire?_toWire {α : Type} {write : α → Wire} {read : Wire → Option α}
    {keep : α → Option α} (h : ∀ a, readOption? read (write a) = some (keep a)) (b : Bounds α) :
    Bounds.ofWire? read (b.toWire write) = some ⟨b.min.bind keep, b.max.bind keep⟩ := by
  have hwire : b.toWire write =
      .object (shownMembers [("min", b.min.map write), ("max", b.max.map write)]) := by
    rw [Bounds.toWire, optionMember_eq, optionMember_eq, shownMembers_append]
    rfl
  have hslots : ([("min", b.min.map write), ("max", b.max.map write)].map (·.1)).Nodup := by
    simp
  rw [hwire, Bounds.ofWire?, readMembers?, Option.bind_eq_bind, Option.bind_some]
  simp [readMember?_shownMembers _ _ hslots, List.lookup_cons, readSlot?_option h]

/-- Limits that are all printed. -/
theorem Bounds.ofWire?_toWire_all {α : Type} {write : α → Wire} {read : Wire → Option α}
    (h : ∀ a, readOption? read (write a) = some (some a)) (b : Bounds α) :
    Bounds.ofWire? read (b.toWire write) = some b := by
  rw [Bounds.ofWire?_toWire h, Option.bind_fun_some, Option.bind_fun_some]

theorem TextLimits.ofWire?_toWire (l : TextLimits) : TextLimits.ofWire? l.toWire = some l := by
  have hunsigned (n : UInt64) : readUInt64? (unsignedWire n) = some n := uint64?_toNat n
  simp [TextLimits.ofWire?, TextLimits.toWire, readMembers?, readMember?, WireMap.get?,
    List.lookup_cons, hunsigned, readBool?]

end Limits

/-! ### Types -/

section Types

/-- The limits that are read back. -/
def Bounds.shown (b : Bounds Binary64) : Bounds Binary64 :=
  ⟨b.min.bind Binary64.shown, b.max.bind Binary64.shown⟩

/-- What a printed type is read as. -/
def TypeSpec.shown : TypeSpec → TypeSpec
  | .float k b => .float k b.shown
  | t => t

theorem TypeSpec.ofWire?_toWire (t : TypeSpec) : TypeSpec.ofWire? t.toWire = some t.shown := by
  cases t with
  | bool => rfl
  | signed k b =>
    have hbounds := b.ofWire?_toWire_all readOption?_signed
    cases k <;> simp [TypeSpec.toWire, TypeSpec.ofWire?, TypeSpec.ofMember?, SignedKind.name,
      TypeSpec.shown, hbounds]
  | unsigned k b =>
    have hbounds := b.ofWire?_toWire_all readOption?_unsigned
    cases k <;> simp [TypeSpec.toWire, TypeSpec.ofWire?, TypeSpec.ofMember?, UnsignedKind.name,
      TypeSpec.shown, hbounds]
  | float k b =>
    have hbounds := b.ofWire?_toWire readOption?_float
    cases k <;> simp [TypeSpec.toWire, TypeSpec.ofWire?, TypeSpec.ofMember?, FloatKind.name,
      TypeSpec.shown, Bounds.shown, hbounds]
  | binary maxBytes =>
    have hslot := readSlot?_option readOption?_unsigned maxBytes
    have hslots : ([("max_bytes", maxBytes.map unsignedWire)].map (·.1)).Nodup := by simp
    simp [TypeSpec.toWire, TypeSpec.ofWire?, TypeSpec.ofMember?, Kind.name, TypeSpec.shown,
      optionMember_eq, readMembers?, readMember?_shownMembers _ _ hslots, hslot]
  | lookup path => rfl
  | text k limits =>
    have hlimits := limits.ofWire?_toWire
    cases k <;> simp [TypeSpec.toWire, TypeSpec.ofWire?, TypeSpec.ofMember?, TextKind.name,
      TypeSpec.shown, hlimits]
  | datetime format => cases format <;> rfl
  | duration b =>
    have hbounds := b.ofWire?_toWire_all readOption?_signed
    simp [TypeSpec.toWire, TypeSpec.ofWire?, TypeSpec.ofMember?, Kind.name, TypeSpec.shown, hbounds]

/-- A type is never printed as null. -/
theorem TypeSpec.readOption?_toWire (t : TypeSpec) :
    readOption? TypeSpec.ofWire? t.toWire = some (some t.shown) := by
  have hread : readOption? TypeSpec.ofWire? t.toWire = (TypeSpec.ofWire? t.toWire).map some := by
    cases t <;> rfl
  rw [hread, t.ofWire?_toWire]
  rfl

end Types

/-! ### Fields and datasets -/

section Datasets

def FieldSpec.slots (f : FieldSpec) : List (String × Option Wire) :=
  [("id", some (.string f.id)), ("title", shownText f.title), ("usage", shownText f.usage),
    ("kind", shownKind f.kind), ("type", f.typeSpec.map TypeSpec.toWire),
    ("readonly", shownFlag f.readonly), ("required", shownFlag f.required),
    ("disabled", shownFlag f.disabled), ("hidden", shownFlag f.hidden)]

def DatasetSpec.slots (d : DatasetSpec) : List (String × Option Wire) :=
  [("name", some (.string d.name)), ("path", some (.string d.path)), ("title", shownText d.title),
    ("usage", shownText d.usage), ("fields", some (.array (d.fields.map FieldSpec.toWire))),
    ("primary", some (.string d.primary)), ("display", shownText d.display),
    ("extendable", shownFlag d.extendable)]

theorem FieldSpec.toWire_eq (f : FieldSpec) : f.toWire = .object (shownMembers f.slots) := by
  have hid : [("id", Wire.string f.id)] = shownMembers [("id", some (.string f.id))] := rfl
  simp only [FieldSpec.toWire, FieldSpec.slots, hid, textMember_eq, flagMember_eq, optionMember_eq,
    kindMember_eq, shownMembers_append, List.cons_append, List.nil_append]

theorem DatasetSpec.toWire_eq (d : DatasetSpec) : d.toWire = .object (shownMembers d.slots) := by
  have hkeys : [("name", Wire.string d.name), ("path", .string d.path)] =
      shownMembers [("name", some (.string d.name)), ("path", some (.string d.path))] := rfl
  have hfields :
      [("fields", Wire.array (d.fields.map FieldSpec.toWire)), ("primary", .string d.primary)] =
        shownMembers [("fields", some (.array (d.fields.map FieldSpec.toWire))),
          ("primary", some (.string d.primary))] := rfl
  simp only [DatasetSpec.toWire, DatasetSpec.slots, hkeys, hfields, textMember_eq, flagMember_eq,
    shownMembers_append, List.cons_append, List.nil_append]

/-- What a printed field is read as. -/
def FieldSpec.shown (f : FieldSpec) : FieldSpec :=
  { f with typeSpec := f.typeSpec.map TypeSpec.shown }

def DatasetSpec.shown (d : DatasetSpec) : DatasetSpec :=
  { d with fields := d.fields.map FieldSpec.shown }

theorem FieldSpec.ofWire?_toWire (f : FieldSpec) : FieldSpec.ofWire? f.toWire = some f.shown := by
  have hslots : (f.slots.map (·.1)).Nodup := by simp [FieldSpec.slots]
  have htype : readSlot? (readOption? TypeSpec.ofWire?) none (f.typeSpec.map TypeSpec.toWire) =
      some (f.typeSpec.map TypeSpec.shown) := by
    rw [readSlot?_option TypeSpec.readOption?_toWire, Option.map_eq_bind]
    rfl
  rw [f.toWire_eq, FieldSpec.ofWire?, readMembers?, Option.bind_eq_bind, Option.bind_some]
  simp only [readMember?_shownMembers _ _ hslots]
  simp [FieldSpec.slots, List.lookup_cons, htype, readString?, FieldSpec.shown]

theorem readList?_map {α : Type} {write : α → Wire} {read : Wire → Option α} {shown : α → α}
    (h : ∀ a, read (write a) = some (shown a)) (l : List α) :
    readList? read (.array (l.map write)) = some (l.map shown) := by
  show (l.map write).mapM read = _
  induction l with
  | nil => rfl
  | cons a rest ih => simp [List.mapM_cons, h a, ih]

theorem DatasetSpec.ofWire?_toWire (d : DatasetSpec) :
    DatasetSpec.ofWire? d.toWire = some d.shown := by
  have hslots : (d.slots.map (·.1)).Nodup := by simp [DatasetSpec.slots]
  have hfields := readList?_map FieldSpec.ofWire?_toWire d.fields
  rw [d.toWire_eq, DatasetSpec.ofWire?, readMembers?, Option.bind_eq_bind, Option.bind_some]
  simp only [readMember?_shownMembers _ _ hslots]
  simp [DatasetSpec.slots, List.lookup_cons, hfields, readString?, DatasetSpec.shown]

end Datasets

/-! ### What is lost -/

section Finite

/-- Limits that can be printed. -/
def Bounds.IsFinite (b : Bounds Binary64) : Prop :=
  (∀ x ∈ b.min, x.isFinite = true) ∧ ∀ x ∈ b.max, x.isFinite = true

def TypeSpec.HasFiniteBounds : TypeSpec → Prop
  | .float _ b => b.IsFinite
  | _ => True

/-- All floats of the dataset have finite limits, if any. -/
def DatasetSpec.HasFiniteBounds (d : DatasetSpec) : Prop :=
  ∀ f ∈ d.fields, ∀ t ∈ f.typeSpec, t.HasFiniteBounds

theorem bind_shown_eq_iff (o : Option Binary64) :
    o.bind Binary64.shown = o ↔ ∀ x ∈ o, x.isFinite = true := by
  cases o with
  | none => simp
  | some x =>
    by_cases hx : x.isFinite = true
    · simp [Binary64.shown, hx]
    · simp [Binary64.shown, hx]

theorem TypeSpec.shown_eq_iff (t : TypeSpec) : t.shown = t ↔ t.HasFiniteBounds := by
  cases t with
  | float k b =>
    obtain ⟨lower, upper⟩ := b
    simp [TypeSpec.shown, Bounds.shown, TypeSpec.HasFiniteBounds, Bounds.IsFinite,
      bind_shown_eq_iff]
  | _ => exact iff_of_true rfl trivial

theorem FieldSpec.shown_eq_iff (f : FieldSpec) :
    f.shown = f ↔ ∀ t ∈ f.typeSpec, t.HasFiniteBounds := by
  obtain ⟨id, title, usage, kind, typeSpec, readonly, required, disabled, hidden⟩ := f
  cases typeSpec with
  | none => simp [FieldSpec.shown]
  | some t => simp [FieldSpec.shown, t.shown_eq_iff]

theorem DatasetSpec.shown_eq_iff (d : DatasetSpec) : d.shown = d ↔ d.HasFiniteBounds := by
  have hfields : d.shown = d ↔ d.fields.map FieldSpec.shown = d.fields := by
    constructor
    · intro h
      exact congrArg DatasetSpec.fields h
    · intro h
      unfold DatasetSpec.shown
      rw [h]
  have hall : d.fields.map FieldSpec.shown = d.fields.map id ↔ ∀ f ∈ d.fields, f.shown = f :=
    List.map_inj_left
  rw [List.map_id] at hall
  rw [hfields, hall]
  simp only [FieldSpec.shown_eq_iff]
  rfl

/-- A dataset spec is read back from its wire form, with every member that was left out, exactly
when the limits of its floats are finite. -/
theorem spec_read_back_iff (d : DatasetSpec) :
    DatasetSpec.ofWire? d.toWire = some d ↔ d.HasFiniteBounds := by
  rw [d.ofWire?_toWire, Option.some.injEq, d.shown_eq_iff]

end Finite

end TenantSchema
