import TenantSchema.Proofs.Redecoding
import TenantSchema.Record

/-!
# Codes of violations

An error has a code if and only if a constraint was violated, and the code tells which type found
the violation: the type that was asked, or, once per reference that the error has come along, the id
type of the dictionary behind it. Records and the library pass class and code on.
-/

namespace TenantSchema

variable {τ : Type}

/-- The number of references that the error has come along. -/
def TypeError.depth : TypeError → Nat
  | .lookupId _ cause => cause.depth + 1
  | _ => 0

/-- The type behind so many references, as far as the world knows their targets. -/
def FieldType.idType? (w : World τ) : Nat → FieldType → Option FieldType
  | 0, t => some t
  | hops + 1, t =>
    t.reference?.bind fun l => (l.target? w).bind fun target => idType? w hops target.idType

namespace TypeError

/-- The code, if there is one, is of the type that found the violation. -/
def Fits (e : TypeError) (w : World τ) (t : FieldType) : Prop :=
  ∀ code, e.code = some code →
    ∃ finder, t.idType? w e.depth = some finder ∧ code ∈ finder.codes

theorem isSome_code (e : TypeError) : e.code.isSome ↔ e.errorClass = .constraintViolation := by
  -- the class of an id that does not suit is the one of its cause, and so is its code
  induction e with
  | lookupId id cause ih => exact ih
  | violation v => exact ⟨fun _ => rfl, fun _ => rfl⟩
  | _ => exact ⟨nofun, nofun⟩

variable {w : World τ} {t : FieldType} {e : TypeError}

theorem fits_of_code (h : e.code = none) : e.Fits w t := by
  intro code hcode
  rw [h] at hcode
  cases hcode

theorem IsPlain.fits (h : e.IsPlain t.codes) : e.Fits w t := by
  cases e with
  | violation v =>
    intro code hcode
    cases hcode
    exact ⟨t, rfl, h⟩
  | lookupUnresolved path => exact h.elim
  | lookupId id cause => exact h.elim
  | _ => exact fits_of_code rfl

/-- What fits the reference type fits all types that read their values by it. -/
theorem Fits.of_reference {l : LookupType} (h : e.Fits w (.element (.lookup l)))
    (ht : t.reference? = some l) : e.Fits w t := by
  intro code hcode
  obtain ⟨finder, hfinder, hmem⟩ := h code hcode
  cases hdepth : e.depth with
  | zero =>
    rw [hdepth] at hfinder
    cases hfinder
    have hcodes : t.codes = (FieldType.element (.lookup l)).codes := by
      rcases t with e | e <;> cases e <;> cases ht <;> rfl
    exact ⟨t, rfl, hcodes ▸ hmem⟩
  | succ hops =>
    rw [hdepth] at hfinder
    refine ⟨finder, ?_, hmem⟩
    unfold FieldType.idType?
    rw [ht]
    exact hfinder

/-- One reference further away. -/
theorem Fits.lookupId {l : LookupType} {target : Target} (h : e.Fits w target.idType)
    (htarget : l.target? w = some target) (id : String) :
    (TypeError.lookupId id e).Fits w (.element (.lookup l)) := by
  intro code hcode
  obtain ⟨finder, hfinder, hmem⟩ := h code hcode
  refine ⟨finder, ?_, hmem⟩
  show (l.target? w).bind (fun target => target.idType.idType? w e.depth) = some finder
  rw [htarget]
  exact hfinder

end TypeError

/-! ### What decodings fail with -/

/-- Whatever the decoding fails with fits the type. -/
def FailsAs (t : FieldType) {α : Type} (m : Decoding τ α) : Prop :=
  ∀ w e w', m.run w = (.error e, w') → e.Fits w' t

section FailsAs

variable {α β : Type} {t : FieldType}

theorem FailsAs.throw {e : TypeError} (h : ∀ w : World τ, e.Fits w t) :
    FailsAs t (throw e : Decoding τ α) := by
  intro w e' w' hrun
  cases hrun
  exact h w

/-- A sequence that fails has failed at one of its steps. -/
theorem run_bind_error {w w' : World τ} {m : Decoding τ α} {k : α → Decoding τ β} {e : TypeError}
    (h : (m >>= k).run w = (.error e, w')) :
    m.run w = (.error e, w') ∨ ∃ a w₁, m.run w = (.ok a, w₁) ∧ (k a).run w₁ = (.error e, w') := by
  rw [run_bind] at h
  rcases hm : m.run w with ⟨e' | a, w₁⟩
  · rw [hm] at h
    cases h
    exact .inl rfl
  · rw [hm] at h
    exact .inr ⟨a, w₁, rfl, h⟩

/-- What fails under a renaming of errors fails in the same way before it. -/
theorem run_adapt_error {w w' : World τ} {f : TypeError → TypeError} {m : Decoding τ α}
    {e : TypeError} (h : (ExceptT.adapt f m).run w = (.error e, w')) :
    ∃ cause, m.run w = (.error cause, w') ∧ e = f cause := by
  have hrun : (ExceptT.adapt f m).run w = ((m.run w).1.mapError f, (m.run w).2) := rfl
  rw [hrun] at h
  rcases hm : m.run w with ⟨cause | a, w₁⟩
  · rw [hm] at h
    cases h
    exact ⟨cause, rfl, rfl⟩
  · rw [hm] at h
    cases h

theorem FailsAs.sequential : SequentialIn (τ := τ) t.codes fun m => FailsAs t m where
  pure a w e w' h := by cases h
  throw e he := FailsAs.throw fun _ => he.fits
  bind hm hk w e w' h := by
    rcases run_bind_error h with h | ⟨a, w₁, -, h⟩
    · exact hm w e w' h
    · exact hk a w₁ e w' h

end FailsAs

section Chains

variable {w w' : World τ} {e : TypeError}

/-- The error about an id comes along the reference, unless it is that there is no id. -/
theorem Target.fits_of_idBy {follow : LookupType → RowRef → Decoding τ Value} {l : LookupType}
    {target : Target} {r : RowRef} (hkeeps : ∀ l r, KeepsE World.Remembers (follow l r))
    (hfollow : ∀ l r, FailsAs (.element (.lookup l)) (follow l r))
    (htarget : l.target? w = some target) (h : (target.idBy follow r).run w = (.error e, w')) :
    e.Fits w' (.element (.lookup l)) := by
  rcases run_bind_error h with h | ⟨v, w₁, -, h⟩
  · obtain ⟨cause, hdecode, rfl⟩ := run_adapt_error h
    have hcause : cause.Fits w' target.idType :=
      FailsAs.sequential.decodeBy
        (fun l hl r w e w' h => (hfollow l r w e w' h).of_reference hl) _ w cause w' hdecode
    have hlater := (KeepsE.sequential.within _).decodeBy (t := target.idType)
      (fun l _ => hkeeps l) (.value (.text r.id)) w
    rw [hdecode] at hlater
    exact hcause.lookupId (LookupType.target?_later htarget hlater) r.id
  · dsimp only at h
    split at h
    · cases h
      exact TypeError.IsPlain.fits List.mem_cons_self
    · cases h

variable [DictionarySource τ]

theorem LookupType.typedIdWithin_failsAs (hops : Nat) (l : LookupType) (r : RowRef) :
    FailsAs (.element (.lookup l)) (l.typedIdWithin r hops : Decoding τ Value) := by
  -- on the hops left: the error of an id type that is a reference fits what that one leads to
  induction hops generalizing l r with
  | zero => exact FailsAs.throw fun _ => TypeError.fits_of_code rfl
  | succ hops ih =>
    intro w e w' h
    rcases run_bind_error h with h | ⟨target, w₁, htarget, h⟩
    · exact TypeError.fits_of_code (error_of_resolve h).2.1
    · have hkeeps (l : LookupType) (r : RowRef) :=
        KeepsE.sequential.typedIdWithin (τ := τ) LookupType.resolve_remembers (KeepsE.throw _) hops l r
      exact Target.fits_of_idBy hkeeps ih (target?_of_resolve htarget).2 h

/-- An error of a type has a code exactly if a constraint was violated. The code then is one of the
type, or of the id type that the references lead to, as many as the error has come along. The error of
a record that wraps it, and what both become outside, have its class and its code. -/
structure TypeError.WellCoded (e : TypeError) (w : World τ) (t : FieldType) : Prop where
  violation : e.errorClass = .constraintViolation ↔ e.code.isSome
  code : ∀ code, e.code = some code →
    ∃ finder, t.idType? w e.depth = some finder ∧ code ∈ finder.codes
  outside : e.toError.errorClass = e.errorClass ∧ e.toError.code = e.code
  record : ∀ field, let wrapped := RecordError.type field e
    wrapped.errorClass = e.errorClass ∧ wrapped.code = e.code ∧
      wrapped.toError.errorClass = e.errorClass ∧ wrapped.toError.code = e.code

/-- Whatever a type answers to a source or to a value, an error is coded as it should be. -/
theorem FieldType.errors_are_coded (t : FieldType) (w : World τ) :
    (∀ source e w', (t.decode source : Decoding τ Value).run w = (.error e, w') →
      e.WellCoded w' t) ∧
    ∀ v e w', (t.validate v : Decoding τ Unit).run w = (.error e, w') → e.WellCoded w' t := by
  have hcoded (e : TypeError) (w' : World τ) (h : e.Fits w' t) : e.WellCoded w' t :=
    ⟨e.isSome_code.symm, h, ⟨rfl, rfl⟩, fun _ => ⟨rfl, rfl, rfl, rfl⟩⟩
  have hfollow (l : LookupType) (hl : t.reference? = some l) (r : RowRef) :
      FailsAs t (l.typedId r : Decoding τ Value) :=
    fun w e w' h => (l.typedIdWithin_failsAs _ r w e w' h).of_reference hl
  have hdecode := fun source : Source => FailsAs.sequential.decodeBy hfollow source.input w
  have hvalidate := fun v => FailsAs.sequential.validateBy hfollow v w
  exact ⟨fun source e w' h => hcoded e w' (hdecode source e w' h),
    fun v e w' h => hcoded e w' (hvalidate v e w' h)⟩

end Chains

namespace Orders

/-- No customer has a number beyond one byte. -/
def tooGreat : TypeError :=
  .lookupId "700" (.lookupId "700" (.violation (.signedMax .int "700" 127)))

/-- The code is the one of the customers' ids, two references away. -/
theorem tooGreat_is_coded :
    (type.decode (.wire (.array [.string "700"]))).run before = (.error tooGreat, found) ∧
      tooGreat.code = some "type.int.max.violation" ∧
      type.idType? found tooGreat.depth = some customers.idType ∧
      tooGreat.WellCoded found type := by
  have h : (type.decode (.wire (.array [.string "700"]))).run before = (.error tooGreat, found) := by
    rfl
  exact ⟨h, rfl, rfl, (type.errors_are_coded before).1 _ tooGreat found h⟩

end Orders

end TenantSchema
