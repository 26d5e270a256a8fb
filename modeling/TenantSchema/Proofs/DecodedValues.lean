import TenantSchema.Type.Decode

/-!
# What scalar types give

The values that a scalar type can give, whatever it reads: null, or a value of its own shape within
its constraints.
-/

namespace TenantSchema

open TenantSchema.Number TenantSchema.Calendar

theorem ok_of_bind {ε α β : Type} {a : Except ε α} {f : α → Except ε β} {b : β}
    (h : a >>= f = .ok b) : ∃ x, a = .ok x ∧ f x = .ok b := by
  cases a with
  | ok x => exact ⟨x, rfl, h⟩
  | error e => cases h

variable {input : Input} {v : Value}

theorem BoolType.of_decode (h : BoolType.decode input = .ok v) : v = .null ∨ ∃ b, v = .bool b := by
  unfold BoolType.decode at h
  split at h
  · cases h
    exact .inl rfl
  · cases h
    exact .inr ⟨_, rfl⟩
  · split at h
    · cases h
      exact .inl rfl
    · split at h
      · cases h
        exact .inr ⟨_, rfl⟩
      · cases h
  · cases h

namespace SignedType

variable {t : SignedType} {n : Int} {k : Int64}

theorem accept_again (h : t.accept n = .ok k) : t.accept k.toInt = .ok k := by
  unfold accept at h
  split at h
  · cases h
  · next hmin =>
    split at h
    · cases h
    · next hmax =>
      cases h
      have hle := Int64.le_toInt t.min
      have hlt := Int64.toInt_lt t.max
      have hn : (Int64.ofInt n).toInt = n := Int64.toInt_ofInt_of_le (by omega) (by omega)
      rw [hn]
      unfold accept
      rw [if_neg hmin, if_neg hmax]

theorem of_decode (h : t.decode input = .ok v) :
    v = .null ∨ ∃ k, v = .int k ∧ t.accept k.toInt = .ok k := by
  obtain ⟨wide, -, h⟩ := ok_of_bind h
  cases wide with
  | none =>
    cases h
    exact .inl rfl
  | some n =>
    obtain ⟨k, hk, h⟩ := ok_of_bind h
    cases h
    exact .inr ⟨k, rfl, accept_again hk⟩

theorem validate_of_decode (h : t.decode input = .ok v) : t.validate v = .ok () := by
  rcases of_decode h with rfl | ⟨k, rfl, hk⟩
  · rfl
  · show (t.accept k.toInt).map (fun _ => ()) = _
    rw [hk]
    rfl

end SignedType

namespace UnsignedType

variable {t : UnsignedType} {n : Int} {k : UInt64}

theorem accept_again (h : t.accept n = .ok k) : t.accept k.toNat = .ok k := by
  unfold accept at h
  split at h
  · cases h
  · next hmin =>
    split at h
    · cases h
    · next hmax =>
      cases h
      have hlt := t.max.toNat_lt
      have hn : ((UInt64.ofNat n.toNat).toNat : Int) = n := by
        rw [UInt64.toNat_ofNat', Nat.mod_eq_of_lt (by omega)]
        omega
      rw [hn]
      unfold accept
      rw [if_neg hmin, if_neg hmax]

theorem of_decode (h : t.decode input = .ok v) :
    v = .null ∨ ∃ k, v = .uint k ∧ t.accept k.toNat = .ok k := by
  obtain ⟨wide, -, h⟩ := ok_of_bind h
  cases wide with
  | none =>
    cases h
    exact .inl rfl
  | some n =>
    obtain ⟨k, hk, h⟩ := ok_of_bind h
    cases h
    exact .inr ⟨k, rfl, accept_again hk⟩

theorem validate_of_decode (h : t.decode input = .ok v) : t.validate v = .ok () := by
  rcases of_decode h with rfl | ⟨k, rfl, hk⟩
  · rfl
  · show (t.accept k.toNat).map (fun _ => ()) = _
    rw [hk]
    rfl

end UnsignedType

theorem FloatType.of_decode {t : FloatType} (h : t.decode input = .ok v) :
    v = .null ∨ ∃ x, v = .float (t.normalize x) ∧ t.check x = .ok () := by
  obtain ⟨number, -, h⟩ := ok_of_bind h
  cases number with
  | none =>
    cases h
    exact .inl rfl
  | some x =>
    obtain ⟨_, hcheck, h⟩ := ok_of_bind h
    cases h
    exact .inr ⟨x, rfl, hcheck⟩

/-- What passes the check is finite. -/
theorem FloatType.isFinite_of_check {t : FloatType} {x : Binary64} (h : t.check x = .ok ()) :
    x.isFinite = true := by
  unfold check at h
  split at h
  · cases h
  · next hr =>
    have hr : t.representable x = true := by simpa using hr
    exact (Bool.and_eq_true_iff.mp hr).1

theorem BinaryType.of_decode {t : BinaryType} (h : t.decode input = .ok v) :
    v = .null ∨ ∃ content, v = .binary content ∧ t.check content = .ok () := by
  obtain ⟨found, -, h⟩ := ok_of_bind h
  cases found with
  | none =>
    cases h
    exact .inl rfl
  | some content =>
    obtain ⟨_, hcheck, h⟩ := ok_of_bind h
    cases h
    exact .inr ⟨content, rfl, hcheck⟩

theorem BinaryType.validate_of_decode {t : BinaryType} (h : t.decode input = .ok v) :
    t.validate v = .ok () := by
  rcases of_decode h with rfl | ⟨content, rfl, hcheck⟩
  · rfl
  · exact hcheck

theorem TextType.of_decode {t : TextType} (h : t.decode input = .ok v) :
    v = .null ∨ ∃ s, v = .text s ∧ t.check s = .ok () := by
  obtain ⟨found, -, h⟩ := ok_of_bind h
  cases found with
  | none =>
    cases h
    exact .inl rfl
  | some s =>
    obtain ⟨_, hcheck, h⟩ := ok_of_bind h
    cases h
    exact .inr ⟨s, rfl, hcheck⟩

theorem DatetimeType.of_decode {t : DatetimeType} (h : t.decode input = .ok v) :
    v = .null ∨ ∃ i, v = .datetime i := by
  have htimestamp {found : Option Instant} (h : ofTimestamp found = .ok v) :
      v = .null ∨ ∃ i, v = .datetime i := by
    cases found with
    | none => cases h
    | some i =>
      cases h
      exact .inr ⟨i, rfl⟩
  unfold decode at h
  split at h
  · cases h
    exact .inl rfl
  · cases h
    exact .inr ⟨_, rfl⟩
  · exact htimestamp h
  · exact htimestamp h
  · exact htimestamp h
  · split at h
    · cases h
      exact .inl rfl
    · split at h
      · cases h
        exact .inr ⟨_, rfl⟩
      · cases h
  · cases h

theorem DurationType.of_decode {t : DurationType} (h : t.decode input = .ok v) :
    ∃ span, v = valueOf span ∧ t.validate v = .ok () := by
  obtain ⟨span, -, h⟩ := ok_of_bind h
  obtain ⟨_, hvalid, h⟩ := ok_of_bind h
  cases h
  exact ⟨span, rfl, hvalid⟩

end TenantSchema
