import TenantSchema.Proofs.ReferenceIds

/-!
# References that were accepted

A reference type takes many forms of input, and what it accepts is null or a reference whose id is
trimmed, is not empty, and suits the primary field of the dictionary that the reference leads to. It
takes for null what says nothing: null itself, blank text, and a reference or an object all of whose
members are empty once they are normalized.
-/

namespace TenantSchema

/-! ### Members of an object

Members are known by their names, whatever the case, and the last one of a name counts.
-/

namespace RowRef

def memberNames : List String := ["id", "name", "type"]

/-- All members are scalars of known names. -/
def Readable (members : WireMap) : Prop :=
  ∀ m ∈ members, Text.lowerAscii m.1 ∈ memberNames ∧ (memberText? m.2).isSome = true

/-- The normalized text of the last member of that name. -/
def lastText? (name : String) (members : WireMap) : Option String :=
  members.reverse.findSome? fun m => if Text.lowerAscii m.1 = name then memberText? m.2 else none

/-- The reference with all members set for which there is a text. -/
def withLast (r : RowRef) (members : WireMap) : RowRef :=
  { id := (lastText? "id" members).getD r.id
    name := (lastText? "name" members).getD r.name
    typePath := (lastText? "type" members).getD r.typePath }

theorem lastText?_cons (name : String) (m : String × Wire) (rest : WireMap) :
    lastText? name (m :: rest) =
      (lastText? name rest).or (if Text.lowerAscii m.1 = name then memberText? m.2 else none) := by
  unfold lastText?
  rw [List.reverse_cons, List.findSome?_append, List.findSome?_singleton]

/-- A member is set by a later one of its name, or else by itself. -/
theorem withLast_cons {r r' : RowRef} {name text : String} {x : Wire}
    (hx : memberText? x = some text) (hr : r.withMember? name text = some r') (rest : WireMap) :
    r.withLast ((name, x) :: rest) = r'.withLast rest := by
  unfold withLast
  simp only [lastText?_cons, hx, Option.getD_or]
  unfold withMember? at hr
  split at hr
  case h_4 => cases hr
  all_goals
    next hname =>
    cases hr
    simp [hname]

theorem withMember?_isSome {r : RowRef} {name text : String} :
    (r.withMember? name text).isSome = true ↔ Text.lowerAscii name ∈ memberNames := by
  unfold withMember? memberNames
  split
  all_goals simp_all

theorem ofMembers_eq_ok_iff {r r' : RowRef} {members : WireMap} :
    r.ofMembers members = .ok r' ↔ Readable members ∧ r' = r.withLast members := by
  induction members generalizing r with
  | nil =>
    constructor
    · rintro ⟨⟩
      exact ⟨List.forall_mem_nil _, rfl⟩
    · rintro ⟨-, rfl⟩
      rfl
  | cons m rest ih =>
    obtain ⟨name, x⟩ := m
    rw [ofMembers]
    cases hx : memberText? x with
    | none =>
      refine iff_of_false (by rintro ⟨⟩) fun h => ?_
      have hscalar := (h.1 _ List.mem_cons_self).2
      rw [hx] at hscalar
      cases hscalar
    | some text =>
      have hname : (r.withMember? name text).isSome = true ↔ Text.lowerAscii name ∈ memberNames :=
        withMember?_isSome
      rw [Option.bind_some]
      cases hr : r.withMember? name text with
      | none =>
        rw [hr] at hname
        exact iff_of_false (by rintro ⟨⟩) fun h =>
          Bool.false_ne_true (hname.mpr (h.1 _ List.mem_cons_self).1)
      | some next =>
        rw [hr] at hname
        have hread : Readable ((name, x) :: rest) ↔ Readable rest := by
          unfold Readable
          rw [List.forall_mem_cons, hx]
          exact and_iff_right ⟨hname.mp rfl, rfl⟩
        dsimp only
        rw [ih, hread, withLast_cons hx hr]

end RowRef

/-! ### Inputs that say nothing -/

/-- Null, blank text, or a reference or an object with three empty members. -/
def Input.SaysNothing : Input → Prop
  | .null => True
  | .value (.text s) => ∀ c ∈ s.toList, Text.isBlank c = true
  | .value (.lookup r) =>
    (∀ c ∈ r.id.toList, Text.isBlank c = true) ∧ r.name = "" ∧ r.typePath = ""
  | .struct members =>
    RowRef.Readable members ∧ ∀ name ∈ RowRef.memberNames, (RowRef.lastText? name members).getD "" = ""
  | _ => False

namespace RowRef

theorem nonEmpty?_eq_none_iff {r : RowRef} :
    r.nonEmpty? = none ↔ r.id = "" ∧ r.name = "" ∧ r.typePath = "" := by
  have hempty : r.isEmpty = true ↔ r.id = "" ∧ r.name = "" ∧ r.typePath = "" := by
    unfold isEmpty
    rw [Bool.and_eq_true, Bool.and_eq_true, String.isEmpty_iff, String.isEmpty_iff,
      String.isEmpty_iff, and_assoc]
  rw [← hempty]
  unfold nonEmpty?
  split
  · next h => exact iff_of_true rfl h
  · next h => exact iff_of_false (by rintro ⟨⟩) h

theorem ofInput_eq_none_iff {input : Input} : ofInput input = .ok none ↔ input.SaysNothing := by
  have hblank (s : String) : Text.trim s = "" ↔ ∀ c ∈ s.toList, Text.isBlank c = true := by
    rw [← Text.trimChars_eq_nil_iff, Text.trim, String.ofList_eq_empty_iff]
  have hnonblank (s : String) :
      Text.nonBlank? s = none ↔ ∀ c ∈ s.toList, Text.isBlank c = true := by
    rw [← Text.trimChars_eq_nil_iff]
    refine ⟨fun h => of_not_not fun hne => ?_, Text.nonBlank?_eq_none⟩
    rw [Text.nonBlank?_eq_some hne] at h
    cases h
  cases input with
  | null => exact iff_of_true rfl trivial
  | value v =>
    cases v with
    | text s =>
      show Except.ok ((Text.nonBlank? s).map fun id => ({ id } : RowRef)) = .ok none ↔ _
      rw [Except.ok.injEq, Option.map_eq_none_iff]
      exact hnonblank s
    | lookup r =>
      show Except.ok (nonEmpty? { r with id := Text.trim r.id }) = .ok none ↔ _
      rw [Except.ok.injEq, nonEmpty?_eq_none_iff, hblank]
      rfl
    | _ => exact iff_of_false (by rintro ⟨⟩) not_false
  | struct members =>
    show (ofMembers {} members).map nonEmpty? = .ok none ↔
      Readable members ∧ ∀ name ∈ memberNames, (lastText? name members).getD "" = ""
    have hempty : nonEmpty? (withLast {} members) = none ↔
        ∀ name ∈ memberNames, (lastText? name members).getD "" = "" := by
      rw [nonEmpty?_eq_none_iff]
      simp [withLast, memberNames]
    cases hread : ofMembers {} members with
    | error e =>
      refine iff_of_false (by rintro ⟨⟩) fun h => ?_
      rw [ofMembers_eq_ok_iff.mpr ⟨h.1, rfl⟩] at hread
      cases hread
    | ok r =>
      obtain ⟨hreadable, rfl⟩ := ofMembers_eq_ok_iff.mp hread
      rw [and_iff_right hreadable, ← hempty]
      show Except.ok (nonEmpty? (withLast {} members)) = .ok none ↔ _
      rw [Except.ok.injEq]
  | list items => exact iff_of_false (by rintro ⟨⟩) not_false

end RowRef

/-! ### One hop more -/

section Extends

variable {τ α β : Type}

/-- What the one decoding gives, the other gives as well, and leaves the same world behind. -/
def Extends (m m' : Decoding τ α) : Prop :=
  ∀ w a w', m.run w = (.ok a, w') → m'.run w = (.ok a, w')

theorem Extends.refl (m : Decoding τ α) : Extends m m := fun _ _ _ h => h

theorem Extends.bind {m m' : Decoding τ α} {k k' : α → Decoding τ β} (hm : Extends m m')
    (hk : ∀ a, Extends (k a) (k' a)) : Extends (m >>= k) (m' >>= k') := by
  intro w b w' h
  obtain ⟨a, w₁, ha, hb⟩ := run_bind_ok h
  rw [run_bind, hm w a w₁ ha]
  exact hk a w₁ b w' hb

theorem Extends.adapt (f : TypeError → TypeError) {m m' : Decoding τ α} (hm : Extends m m') :
    Extends (ExceptT.adapt f m) (ExceptT.adapt f m') := by
  have hrun (m : Decoding τ α) (w : World τ) :
      (ExceptT.adapt f m).run w = ((m.run w).1.mapError f, (m.run w).2) := rfl
  intro w a w' h
  rcases ha : m.run w with ⟨e | b, w₁⟩
  · rw [hrun, ha] at h
    cases h
  · rw [hrun, ha] at h
    cases h
    rw [hrun, hm w a w₁ ha]
    rfl

section Follow

variable {follow follow' : LookupType → RowRef → Decoding τ Value}
  (h : ∀ l r, Extends (follow l r) (follow' l r))

include h

theorem Extends.lookupCheck (l : LookupType) (r : RowRef) :
    Extends (l.check follow r) (l.check follow' r) := by
  unfold LookupType.check
  cases Text.nonBlank? r.id with
  | none => exact Extends.refl _
  | some id => exact (h l r).bind fun _ => Extends.refl _

theorem Extends.elementDecode (e : ElementType) (input : Input) :
    Extends (e.decode follow input) (e.decode follow' input) := by
  cases e with
  | lookup l =>
    refine (Extends.refl (liftM (RowRef.ofInput input))).bind fun r => ?_
    cases r with
    | none => exact Extends.refl _
    | some r => exact (Extends.lookupCheck h l r).bind fun _ => Extends.refl _
  | _ => exact Extends.refl _

theorem Extends.elementValidate (e : ElementType) (v : Value) :
    Extends (e.validate follow v) (e.validate follow' v) := by
  cases e with
  | lookup l =>
    cases v with
    | lookup r =>
      show Extends (if r.isEmpty then pure () else l.check follow r)
        (if r.isEmpty then pure () else l.check follow' r)
      split
      · exact Extends.refl _
      · exact Extends.lookupCheck h l r
    | _ => exact Extends.refl _
  | _ => exact Extends.refl _

/-- Ids are text, and no text is read as a list. -/
theorem Extends.decodeBy_text (t : FieldType) (s : String) :
    Extends (t.decodeBy follow (.value (.text s))) (t.decodeBy follow' (.value (.text s))) := by
  cases t with
  | element e =>
    exact (Extends.elementDecode h e _).bind fun v =>
      (Extends.elementValidate h e v).bind fun _ => Extends.refl _
  | list e =>
    intro w v w' hlist
    cases hlist

theorem Extends.idBy (t : Target) (r : RowRef) : Extends (t.idBy follow r) (t.idBy follow' r) :=
  ((Extends.decodeBy_text h t.idType r.id).adapt _).bind fun _ => Extends.refl _

end Follow

/-- An id that is taken within so many hops is taken within more. -/
theorem LookupType.typedIdWithin_extends [DictionarySource τ] (hops : Nat) (l : LookupType)
    (r : RowRef) :
    Extends (l.typedIdWithin r hops : Decoding τ Value) (l.typedIdWithin r (hops + 1)) := by
  induction hops generalizing l r with
  | zero =>
    intro w v w' h
    cases h
  | succ hops ih =>
    rw [typedIdWithin_succ, typedIdWithin_succ]
    exact (Extends.refl l.resolve).bind fun t => Extends.idBy ih t r

end Extends

/-! ### What is accepted -/

section Accepted

variable {τ : Type} [DictionarySource τ] {l : LookupType} {w w' : World τ}

/-- The target is what the reference is known to refer to, or else the dictionary that is found, with
its primary field. -/
inductive LookupType.LeadsTo (l : LookupType) (w : World τ) (t : Target) : Prop where
  | known (h : l.target? w = some t)
  | found (d : FoundDictionary) (hnone : l.target? w = none)
      (hfound : (DictionarySource.find l.via l.domain l.path w.store).1 = .ok (some d))
      (hpath : d.path = t.path) (hprimary : d.primary = some (t.primary, t.idType))

theorem LookupType.of_targetOfFound {found : Except Error (Option FoundDictionary)} {t : Target}
    (h : l.targetOfFound found = .ok t) :
    ∃ d, found = .ok (some d) ∧ d.path = t.path ∧ d.primary = some (t.primary, t.idType) := by
  unfold targetOfFound at h
  split at h
  · cases h
    exact ⟨_, rfl, rfl, rfl⟩
  all_goals cases h

theorem LookupType.leadsTo_of_resolve {t : Target}
    (h : (l.resolve : Decoding τ Target).run w = (.ok t, w')) : l.LeadsTo w t := by
  cases htarget : l.target? w with
  | some known =>
    rw [run_resolve_of_target htarget] at h
    cases h
    exact .known htarget
  | none =>
    obtain ⟨d, hfound, hpath, hprimary⟩ := of_targetOfFound (run_resolve_of_none htarget h).1
    exact .found d htarget hfound hpath hprimary

/-- The reference leads to a target, and from then on its id is a value of the primary field of that
target, other than null. -/
def LookupType.Suits (l : LookupType) (w w' : World τ) (id : String) : Prop :=
  ∃ t x, l.LeadsTo w t ∧ Settled w' (l.resolve : Decoding τ Target) t ∧ x ≠ .null ∧
    Settled w' (t.idType.decode (.value (.text id)) : Decoding τ Value) x

theorem LookupType.suits_of_typedId {r : RowRef} {x : Value}
    (h : (l.typedId r : Decoding τ Value).run w = (.ok x, w')) : l.Suits w w' r.id := by
  have hfollow (hops : Nat) (l : LookupType) (r : RowRef) :
      Steady (l.typedIdWithin r hops : Decoding τ Value) :=
    Steady.sequential.typedIdWithin Steady.resolve (Steady.throw _) hops l r
  obtain ⟨t, w₁, htarget, hid⟩ := run_bind_ok h
  obtain ⟨hnull, hid⟩ := Target.idBy_run hid
  have hdecode : (t.idType.decode (.value (.text r.id)) : Decoding τ Value).run w₁ = (.ok x, w') :=
    Extends.decodeBy_text (typedIdWithin_extends _) t.idType r.id w₁ x w' hid
  obtain ⟨hlater, hsettled⟩ := (Steady.sequential.within _).decodeBy (fun l _ => hfollow _ l)
    (.value (.text r.id)) w₁ x w' hdecode
  refine ⟨t, x, leadsTo_of_resolve htarget, (Steady.resolve l w t w₁ htarget).2.later hlater, ?_,
    hsettled⟩
  rintro rfl
  cases hnull

/-- Whatever a reference type accepts, it takes for null what says nothing, and gives else a reference
with a trimmed id that is not empty and suits the dictionary. -/
theorem accepted_reference_suits (l : LookupType) (source : Source) {w w' : World τ} {v : Value}
    (h : ((FieldType.element (.lookup l)).decode source : Decoding τ Value).run w = (.ok v, w')) :
    v = .null ∧ source.input.SaysNothing ∨
      ∃ r, v = .lookup r ∧ ¬ source.input.SaysNothing ∧ r.id ≠ "" ∧ Text.IsTrimmed r.id ∧
        l.Suits w w' r.id := by
  obtain ⟨v₁, w₁, hdecoded, h⟩ := run_bind_ok h
  obtain ⟨_, w₂, hvalid, h⟩ := run_bind_ok h
  cases h
  -- the check of what was decoded changes nothing any more
  obtain rfl : w₁ = w' := by
    have hsettled := LookupType.settled_validate (LookupType.typedIdWithin_consistent _)
      hdecoded w₁ (Std.Refl.refl (r := World.Remembers) w₁)
    exact congrArg Prod.snd (hsettled.symm.trans hvalid)
  rcases LookupType.decode_cases hdecoded with ⟨hread, rfl, -⟩ | ⟨r, hread, rfl, hcheck⟩
  · exact .inl ⟨rfl, RowRef.ofInput_eq_none_iff.mp hread⟩
  · have hspeaks : ¬ source.input.SaysNothing := by
      rw [← RowRef.ofInput_eq_none_iff, hread]
      exact nofun
    obtain ⟨id, x, hnonblank, hx⟩ := LookupType.check_run hcheck
    have hid : r.id ≠ "" := by
      intro hempty
      rw [hempty] at hnonblank
      cases hnonblank
    exact .inr ⟨r, rfl, hspeaks, hid, RowRef.isTrimmed_id_ofInput hread, LookupType.suits_of_typedId hx⟩

end Accepted

namespace Orders

/-- The last id counts, whatever the case of its name. -/
def repeated : Source :=
  .wire (.object [("id", .string "3"), ("Name", .null), ("ID", .string " 7 ")])

/-- The order of a customer is known by the customer, who is known by a number. -/
theorem seven_suits_orders :
    let l := LookupType.free 0 0 "orders" .default
    ((FieldType.element (.lookup l)).decode repeated).run before =
        (.ok (.lookup { id := "7" }), found) ∧
      ¬ repeated.input.SaysNothing ∧ l.Suits before found "7" := by
  have h : ((FieldType.element (.lookup (.free 0 0 "orders" .default))).decode repeated).run before =
      (.ok (.lookup { id := "7" }), found) := by rfl
  refine ⟨h, ?_⟩
  rcases accepted_reference_suits _ _ h with ⟨hnull, -⟩ | ⟨r, hr, hspeaks, -, -, hsuits⟩
  · cases hnull
  · cases hr
    exact ⟨hspeaks, hsuits⟩

end Orders

end TenantSchema
