import TenantSchema.Proofs.CodecErrors
import TenantSchema.Proofs.Runs

/-!
# Decoding as a program

All that decoding and checking do to a world is to resolve references, and no other step misses a
dictionary. What sequencing passes on from resolving a reference holds of every decoding, along
chains of references of any length; so does what resolving a reference keeps.
-/

namespace TenantSchema

variable {τ : Type}

theorem run_outcome {α : Type} (a : Except TypeError α) (w : World τ) :
    (liftM a : Decoding τ α).run w = (a, w) := rfl

theorem run_liftExcept {α : Type} (a : Except TypeError α) (w : World τ) :
    (liftExcept a : Decoding τ α).run w = (a, w) := by
  cases a <;> rfl

/-- A type that looks at nothing but the input gives what its decoder gives, if that passes its
check. -/
theorem FieldType.run_decodeBy_element {e : ElementType} {dec : Input → Except TypeError Value}
    {check : Value → Except TypeError Unit} {follow : LookupType → RowRef → Decoding τ Value}
    (hdec : ∀ input, e.decode follow input = liftExcept (dec input))
    (hcheck : ∀ v, e.validate follow v = liftExcept (check v)) {input : Input}
    (hvalid : ∀ v, dec input = .ok v → check v = .ok ()) (w : World τ) :
    ((FieldType.element e).decodeBy follow input).run w = (dec input, w) := by
  show (do
    let v ← e.decode follow input
    e.validate follow v
    return v : Decoding τ Value).run w = _
  rw [hdec, run_bind, run_liftExcept]
  cases hv : dec input with
  | error err => rfl
  | ok v =>
    dsimp only
    rw [hcheck, hvalid v hv]
    rfl

/-- The id of a reference, decoded by the primary field of the target. -/
def Target.idBy (follow : LookupType → RowRef → Decoding τ Value) (t : Target) (r : RowRef) :
    Decoding τ Value := do
  let v ← ExceptT.adapt (.lookupId r.id) (t.idType.decodeBy follow (.value (.text r.id)))
  if v.isNull then throw (.violation .lookupIdRequired)
  return v

theorem LookupType.typedIdWithin_succ [DictionarySource τ] (l : LookupType) (r : RowRef)
    (hops : Nat) :
    (l.typedIdWithin r (hops + 1) : Decoding τ Value) =
      l.resolve >>= fun t => t.idBy (fun l r => l.typedIdWithin r hops) r := rfl

/-- The reference type that a type reads its values by, alone or in lists. -/
def FieldType.reference? : FieldType → Option LookupType
  | .element (.lookup l) => some l
  | .list (.lookup l) => some l
  | _ => none

/-- A property of decodings that sequencing passes on. -/
structure Sequential (P : ∀ {α : Type}, Decoding τ α → Prop) : Prop where
  pure : ∀ {α : Type} (a : α), P (Pure.pure a)
  throw : ∀ {α : Type} (e : TypeError), e.isUnresolved = false → P (throw e : Decoding τ α)
  bind : ∀ {α β : Type} {m : Decoding τ α} {k : α → Decoding τ β}, P m → (∀ a, P (k a)) →
    P (m >>= k)
  adapt : ∀ {α : Type} (id : String) {m : Decoding τ α}, P m →
    P (ExceptT.adapt (.lookupId id) m)

/-- The same, of decodings in which no violations are found but those with the codes. -/
structure SequentialIn (codes : List String) (P : ∀ {α : Type}, Decoding τ α → Prop) : Prop where
  pure : ∀ {α : Type} (a : α), P (Pure.pure a)
  throw : ∀ {α : Type} (e : TypeError), e.IsPlain codes → P (throw e : Decoding τ α)
  bind : ∀ {α β : Type} {m : Decoding τ α} {k : α → Decoding τ β}, P m → (∀ a, P (k a)) →
    P (m >>= k)

/-- Some decoding by the type has given the value. -/
def FieldType.Gives (t : FieldType) (v : Value) : Prop :=
  ∃ (τ : Type) (follow : LookupType → RowRef → Decoding τ Value) (input : Input) (w : World τ),
    ((t.decodeBy follow input).run w).1 = .ok v

/-- The codes of the violations that a type finds by itself, in a list or alone. -/
def FieldType.codes : FieldType → List String
  | .element e => e.codes
  | .list e => e.codes

namespace SequentialIn

variable {codes : List String} {P : ∀ {α : Type}, Decoding τ α → Prop}

section Steps

variable (hP : SequentialIn codes P)

include hP

theorem outcome {α : Type} {a : Except TypeError α} (ha : FailsWithin codes a) :
    P (liftM a : Decoding τ α) := by
  cases a with
  | ok a => exact hP.pure a
  | error e => exact hP.throw e (failsWithin_error.mp ha)

theorem ofExcept {α : Type} {a : Except TypeError α} (ha : FailsWithin codes a) :
    P (liftExcept a : Decoding τ α) := by
  cases a with
  | ok a => exact hP.pure a
  | error e => exact hP.throw e (failsWithin_error.mp ha)

theorem mapM {α β : Type} {f : α → Decoding τ β} (h : ∀ a, P (f a)) (l : List α) :
    P (l.mapM f) := by
  induction l with
  | nil => exact hP.pure []
  | cons a l ih =>
    rw [List.mapM_cons]
    exact hP.bind (h a) fun b => hP.bind ih fun bs => hP.pure (b :: bs)

theorem forM {α : Type} {f : α → Decoding τ Unit} (h : ∀ a, P (f a)) (l : List α) :
    P (l.forM f) := by
  induction l with
  | nil => exact hP.pure ()
  | cons a l ih => exact hP.bind (h a) fun _ => ih

end Steps

/-! ### One hop

Only the reference that a type reads its values by is ever followed.
-/

variable {follow : LookupType → RowRef → Decoding τ Value}

section Reference

variable {l : LookupType} (hP : SequentialIn (ElementType.lookup l).codes P)
  (h : ∀ r, P (follow l r))

include hP h

theorem lookupCheck (r : RowRef) : P (l.check follow r) := by
  unfold LookupType.check
  cases Text.nonBlank? r.id with
  | none => exact hP.throw _ List.mem_cons_self
  | some id => exact hP.bind (h r) fun _ => hP.pure ()

theorem lookupDecode (input : Input) : P (l.decode follow input) := by
  refine hP.bind (hP.outcome (RowRef.ofInput_failsWithin input)) fun r => ?_
  cases r with
  | none => exact hP.pure _
  | some r => exact hP.bind (hP.lookupCheck h r) fun _ => hP.pure _

theorem lookupValidate (v : Value) : P (l.validate follow v) := by
  cases v with
  | null => exact hP.pure ()
  | lookup r =>
    show P (if r.isEmpty then Pure.pure () else l.check follow r)
    split
    · exact hP.pure ()
    · exact hP.lookupCheck h r
  | _ => exact hP.throw _ trivial

end Reference

section Element

variable {e : ElementType} (hP : SequentialIn e.codes P) (h : ∀ l, e = .lookup l → ∀ r, P (follow l r))

include hP h

theorem elementDecode (input : Input) : P (e.decode follow input) := by
  by_cases he : ∃ l, e = .lookup l
  · obtain ⟨l, rfl⟩ := he
    exact hP.lookupDecode (h l rfl) input
  · obtain ⟨outcome, houtcome, hdecode⟩ := ElementType.decode_alone input (not_exists.mp he)
    rw [hdecode follow]
    exact hP.ofExcept houtcome

theorem elementValidate (v : Value) : P (e.validate follow v) := by
  by_cases he : ∃ l, e = .lookup l
  · obtain ⟨l, rfl⟩ := he
    exact hP.lookupValidate (h l rfl) v
  · obtain ⟨outcome, houtcome, hvalidate⟩ := ElementType.validate_alone v (not_exists.mp he)
    rw [hvalidate follow]
    exact hP.ofExcept houtcome

end Element

section Types

variable {t : FieldType} (hP : SequentialIn t.codes P)
  (h : ∀ l, t.reference? = some l → ∀ r, P (follow l r))

include hP h

theorem decodeInput (input : Input) : P (t.decodeInput follow input) := by
  cases t with
  | element e => exact elementDecode hP (fun l hl => h l (by rw [hl]; rfl)) input
  | list e =>
    refine hP.bind (hP.outcome (FieldType.items_failsWithin input)) fun inputs => ?_
    cases inputs with
    | none => exact hP.pure _
    | some inputs =>
      have helement := elementDecode (e := e) hP fun l hl => h l (by rw [hl]; rfl)
      exact hP.bind (hP.mapM helement inputs) fun vs => hP.pure (Value.list vs)

theorem validateBy (v : Value) : P (t.validateBy follow v) := by
  cases t with
  | element e => exact elementValidate hP (fun l hl => h l (by rw [hl]; rfl)) v
  | list e =>
    cases v with
    | null => exact hP.pure ()
    | list vs => exact hP.forM (elementValidate hP fun l hl => h l (by rw [hl]; rfl)) vs
    | _ => exact hP.throw _ trivial

theorem decodeBy (input : Input) : P (t.decodeBy follow input) :=
  hP.bind (hP.decodeInput h input) fun v => hP.bind (hP.validateBy h v) fun _ => hP.pure v

end Types

end SequentialIn

namespace Sequential

variable {P : ∀ {α : Type}, Decoding τ α → Prop} (hP : Sequential P)

include hP

/-- What passes on any violation passes on those with the codes. -/
theorem within (codes : List String) : SequentialIn codes P where
  pure := hP.pure
  throw e he := hP.throw e he.isUnresolved
  bind := hP.bind

theorem ofExcept {α : Type} {a : Except TypeError α} (ha : MissesNone a) :
    P (liftExcept a : Decoding τ α) := by
  cases a with
  | ok a => exact hP.pure a
  | error e => exact hP.throw e (missesNone_error.mp ha)

theorem idBy {follow : LookupType → RowRef → Decoding τ Value} {t : Target}
    (h : ∀ l, t.idType.reference? = some l → ∀ r, P (follow l r)) (r : RowRef) :
    P (t.idBy follow r) := by
  refine hP.bind (hP.adapt r.id ((hP.within _).decodeBy h _)) fun v => ?_
  dsimp only
  split
  · exact hP.bind (hP.throw (α := PUnit) _ rfl) fun _ => hP.pure v
  · exact hP.pure v

theorem validateDescriptorBy {follow : LookupType → Decoding τ Unit} {t : FieldType}
    (h : ∀ l, t.reference? = some l → P (follow l)) : P (t.validateDescriptorBy follow) := by
  have helement {e : ElementType} (h : ∀ l, e = .lookup l → P (follow l)) :
      P (e.validateDescriptor follow) := by
    cases e with
    | undefined cause => exact (hP.within []).throw _ (TypeError.isPlain_missing cause)
    | signed t => exact hP.ofExcept t.validateDescriptor_findsDefects.missesNone
    | unsigned t => exact hP.ofExcept t.validateDescriptor_findsDefects.missesNone
    | float t => exact hP.ofExcept t.validateDescriptor_findsDefects.missesNone
    | duration t => exact hP.ofExcept t.validateDescriptor_findsDefects.missesNone
    | lookup l => exact h l rfl
    | _ => exact hP.pure ()
  cases t with
  | element e => exact helement fun l hl => h l (by rw [hl]; rfl)
  | list e =>
    by_cases he : ∃ cause, e = .undefined cause
    · obtain ⟨cause, rfl⟩ := he
      exact hP.throw _ rfl
    · have hlist : (FieldType.list e).validateDescriptorBy follow = e.validateDescriptor follow := by
        cases e <;> first | rfl | exact absurd ⟨_, rfl⟩ he
      rw [hlist]
      exact helement fun l hl => h l (by rw [hl]; rfl)

/-! ### Chains -/

section Chains

variable [DictionarySource τ] (h : ∀ l : LookupType, P (l.resolve : Decoding τ Target))
  (hend : ∀ {α : Type}, P (MonadExcept.throw (TypeError.breakdown .exhausted) : Decoding τ α))

include h hend

theorem typedIdWithin (hops : Nat) (l : LookupType) (r : RowRef) :
    P (l.typedIdWithin r hops : Decoding τ Value) := by
  -- on the hops left: the type of an identifier may be a reference itself
  induction hops generalizing l r with
  | zero => exact hend
  | succ hops ih => exact hP.bind (h l) fun target => hP.idBy (fun l _ => ih l) r

theorem validateTargetWithin (hops : Nat) (l : LookupType) :
    P (l.validateTargetWithin hops : Decoding τ Unit) := by
  induction hops generalizing l with
  | zero => exact hend
  | succ hops ih => exact hP.bind (h l) fun target => hP.validateDescriptorBy fun l _ => ih l

end Chains

end Sequential

/-! ### What decoding keeps -/

variable {R : World τ → World τ → Prop} [IsPreorder (World τ) R]

theorem KeepsE.sequential : Sequential (τ := τ) fun m => KeepsE R m where
  pure := KeepsE.pure
  throw e _ := KeepsE.throw e
  bind := KeepsE.bind
  adapt id _ hm := KeepsE.adapt (TypeError.lookupId id) hm

/-- Resolving a reference asks for a dictionary at most, and remembers what it has found. -/
theorem LookupType.resolve_keeps [DictionarySource τ]
    (hfind : ∀ via domain path,
      Keeps R (World.onStore (DictionarySource.find (τ := τ) via domain path)))
    (hremember : ∀ cell t (w : World τ), R w (w.remember cell t)) (l : LookupType) :
    KeepsE R (l.resolve : Decoding τ Target) := by
  refine KeepsE.bind KeepsE.get fun w => ?_
  cases l.target? w with
  | some t => exact KeepsE.pure _
  | none =>
    dsimp only
    split
    · exact KeepsE.throw _
    · refine KeepsE.bind (KeepsE.lift (hfind _ _ _)) fun found => ?_
      cases l.targetOfFound found with
      | error e => exact KeepsE.throw _
      | ok t =>
        exact KeepsE.bind (KeepsE.modify (hremember l.cell t)) fun _ => KeepsE.pure _

section Chains

variable [DictionarySource τ] (h : ∀ l : LookupType, KeepsE R (l.resolve : Decoding τ Target))

include h

theorem FieldType.decode_keeps (t : FieldType) (source : Source) :
    KeepsE R (t.decode source : Decoding τ Value) :=
  (KeepsE.sequential.within _).decodeBy (fun l _ r => KeepsE.sequential.typedIdWithin h (KeepsE.throw _) _ l r)
    source.input

theorem FieldType.validateDescriptor_keeps (t : FieldType) :
    KeepsE R (t.validateDescriptor : Decoding τ Unit) :=
  KeepsE.sequential.validateDescriptorBy
    fun l _ => KeepsE.sequential.validateTargetWithin h (KeepsE.throw _) _ l

end Chains

end TenantSchema
