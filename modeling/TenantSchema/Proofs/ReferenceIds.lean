import Mathlib.Data.List.Forall2
import TenantSchema.Proofs.Redecoding

/-!
# The ids that references take

Which ids a reference type takes depends on the dictionary that it leads to, and on those that this
one's primary field leads to in turn. As soon as one id has been taken, the way is known, and later
worlds take the same ids. So the ids that a reference type takes say all about how it decodes, alone
or in lists.
-/

namespace TenantSchema

variable {τ : Type}

/-! ### Outcomes -/

section Outcomes

variable {α β : Type} {w : World τ}

/-- In this world the decoding gives the value. -/
def Brings (w : World τ) (m : Decoding τ α) (a : α) : Prop := ∃ w', m.run w = (.ok a, w')

def Succeeds (w : World τ) (m : Decoding τ α) : Prop := ∃ a, Brings w m a

theorem brings_pure {a b : α} : Brings w (pure a : Decoding τ α) b ↔ b = a := by
  constructor
  · rintro ⟨w', h⟩
    cases h
    rfl
  · rintro rfl
    exact ⟨w, rfl⟩

theorem brings_bind {m : Decoding τ α} {k : α → Decoding τ β} {b : β} :
    Brings w (m >>= k) b ↔ ∃ a w', m.run w = (.ok a, w') ∧ Brings w' (k a) b := by
  constructor
  · rintro ⟨w'', h⟩
    obtain ⟨a, w', hm, hk⟩ := run_bind_ok h
    exact ⟨a, w', hm, w'', hk⟩
  · rintro ⟨a, w', hm, w'', hk⟩
    refine ⟨w'', ?_⟩
    rw [run_bind, hm]
    exact hk

theorem brings_iff {m : Decoding τ α} {a : α} : Brings w m a ↔ (m.run w).1 = .ok a := by
  constructor
  · rintro ⟨w', h⟩
    rw [h]
  · exact fun h => ⟨(m.run w).2, Prod.ext h rfl⟩

theorem brings_adapt (f : TypeError → TypeError) {m : Decoding τ α} {a : α} :
    Brings w (ExceptT.adapt f m) a ↔ Brings w m a := by
  rw [brings_iff, brings_iff]
  show (m.run w).1.mapError f = .ok a ↔ _
  cases (m.run w).1 <;> simp [Except.mapError]

theorem brings_bind_of_run {w' : World τ} {m : Decoding τ α} {a : α} (h : m.run w = (.ok a, w'))
    {k : α → Decoding τ β} {b : β} : Brings w (m >>= k) b ↔ Brings w' (k a) b := by
  rw [brings_bind, h]
  constructor
  · rintro ⟨a, w', h, hk⟩
    cases h
    exact hk
  · exact fun hk => ⟨a, w', rfl, hk⟩

theorem succeeds_bind_of_run {w' : World τ} {m : Decoding τ α} {a : α}
    (h : m.run w = (.ok a, w')) {k : α → Decoding τ β} :
    Succeeds w (m >>= k) ↔ Succeeds w' (k a) :=
  exists_congr fun _ => brings_bind_of_run h

/-- What one item has given makes no difference to what the others give. -/
def Unmoved (f : α → Decoding τ β) : Prop :=
  ∀ {a b} {w w' : World τ}, (f a).run w = (.ok b, w') →
    ∀ a' b', Brings w' (f a') b' ↔ Brings w (f a') b'

/-- The items of a list are done as if each were the first. -/
theorem brings_mapM {f : α → Decoding τ β} (hf : Unmoved f) {l : List α} {bs : List β} :
    Brings w (l.mapM f) bs ↔ List.Forall₂ (fun a b => Brings w (f a) b) l bs := by
  induction l generalizing w bs with
  | nil => rw [List.mapM_nil, brings_pure, List.forall₂_nil_left_iff]
  | cons a rest ih =>
    rw [List.mapM_cons]
    constructor
    · intro h
      obtain ⟨b, w₁, hb, h⟩ := brings_bind.mp h
      obtain ⟨bs', w₂, hbs, h⟩ := brings_bind.mp h
      obtain rfl := brings_pure.mp h
      have hrest := ih.mp ⟨w₂, hbs⟩
      exact .cons ⟨w₁, hb⟩ (hrest.imp fun a' b' => (hf hb a' b').mp)
    · intro h
      obtain ⟨b, bs', ⟨w₁, hb⟩, hrest, rfl⟩ := List.forall₂_cons_left_iff.mp h
      have hrest := hrest.imp fun a' b' => (hf hb a' b').mpr
      obtain ⟨w₂, hbs⟩ := ih.mpr hrest
      exact brings_bind.mpr ⟨b, w₁, hb, brings_bind.mpr ⟨bs', w₂, hbs, brings_pure.mpr rfl⟩⟩

/-- What is settled does not matter for what follows. -/
theorem brings_settled {m : Decoding τ α} {a : α} (h : Settled w m a) {k : α → Decoding τ β}
    {b : β} : Brings w (m >>= k) b ↔ Brings w (k a) b :=
  brings_bind_of_run (h w (Std.Refl.refl (r := World.Remembers) w))

/-- The same value, or both fail. -/
theorem toOption_eq_iff {m m' : Decoding τ α} :
    (m.run w).1.toOption = (m'.run w).1.toOption ↔ ∀ a, Brings w m a ↔ Brings w m' a := by
  have hbrings (m : Decoding τ α) (a : α) : Brings w m a ↔ (m.run w).1.toOption = some a := by
    rw [brings_iff]
    cases (m.run w).1 <;> simp [Except.toOption]
  simp only [hbrings]
  exact Option.ext_iff

end Outcomes

/-! ### What a reference type reads -/

/-- The value that is read from an input, given which references are taken. -/
def RowRef.Reads (takes : RowRef → Prop) (input : Input) (v : Value) : Prop :=
  match ofInput input with
  | .ok none => v = .null
  | .ok (some r) => takes r ∧ v = .lookup r
  | .error _ => False

/-- The same, for the elements of a list. -/
def RowRef.ReadsList (takes : RowRef → Prop) (input : Input) (v : Value) : Prop :=
  match FieldType.items input with
  | .ok none => v = .null
  | .ok (some inputs) => ∃ vs, List.Forall₂ (Reads takes) inputs vs ∧ v = .list vs
  | .error _ => False

theorem RowRef.Reads.mono {takes takes' : RowRef → Prop} {input : Input} {v : Value}
    (h : ∀ r, ofInput input = .ok (some r) → takes r → takes' r) (hr : Reads takes input v) :
    Reads takes' input v := by
  unfold Reads at hr ⊢
  split at hr
  · exact hr
  · next r hread => exact ⟨h r hread hr.1, hr.2⟩
  · exact hr

theorem RowRef.ReadsList.mono {takes takes' : RowRef → Prop} {input : Input} {v : Value}
    (h : ∀ input r, ofInput input = .ok (some r) → takes r → takes' r)
    (hr : ReadsList takes input v) : ReadsList takes' input v := by
  unfold ReadsList at hr ⊢
  split at hr
  · exact hr
  · next inputs =>
    obtain ⟨vs, hvs, rfl⟩ := hr
    exact ⟨vs, List.Forall₂.imp (fun input v => Reads.mono (h input)) hvs, rfl⟩
  · exact hr

/-- The reference with an id alone is read from itself. -/
theorem RowRef.reads_lookup {takes : RowRef → Prop} {id : String}
    (hid : Text.nonBlank? id = some id) :
    Reads takes (.value (.lookup { id })) (.lookup { id }) ↔ takes { id } := by
  have hread : ofInput (.value (.lookup { id })) = .ok (some { id }) :=
    ofInput_lookup (Text.isTrimmed_of_nonBlank? hid) hid
  simp only [Reads, hread, and_true]

theorem RowRef.readsList_lookup {takes : RowRef → Prop} {id : String}
    (hid : Text.nonBlank? id = some id) :
    ReadsList takes (.value (.list [.lookup { id }])) (.list [.lookup { id }]) ↔ takes { id } := by
  show (∃ vs, List.Forall₂ (Reads takes) [.value (.lookup { id })] vs ∧
    Value.list [.lookup { id }] = .list vs) ↔ _
  constructor
  · rintro ⟨vs, hvs, hv⟩
    cases hv
    rw [List.forall₂_cons, reads_lookup hid] at hvs
    exact hvs.1
  · intro h
    refine ⟨[.lookup { id }], ?_, rfl⟩
    rw [List.forall₂_cons, reads_lookup hid]
    exact ⟨h, .nil⟩

section Follow

variable {follow : LookupType → RowRef → Decoding τ Value} {l : LookupType} {input : Input}
  {v : Value} {w : World τ}

theorem LookupType.succeeds_check {r : RowRef} :
    Succeeds w (l.check follow r) ↔ (Text.nonBlank? r.id).isSome ∧ Succeeds w (follow l r) := by
  unfold LookupType.check
  cases Text.nonBlank? r.id with
  | none =>
    refine iff_of_false ?_ (by simp)
    rintro ⟨_, _, h⟩
    cases h
  | some id =>
    constructor
    · rintro ⟨_, h⟩
      obtain ⟨v, w', hv, -⟩ := brings_bind.mp h
      exact ⟨rfl, v, w', hv⟩
    · rintro ⟨-, v, w', hv⟩
      exact ⟨(), brings_bind.mpr ⟨v, w', hv, w', rfl⟩⟩

theorem LookupType.brings_decode :
    Brings w (l.decode follow input) v ↔
      RowRef.Reads (fun r => Succeeds w (l.check follow r)) input v := by
  unfold LookupType.decode RowRef.Reads
  rw [brings_bind, run_outcome]
  rcases RowRef.ofInput input with e | _ | r
  · refine iff_of_false ?_ not_false
    rintro ⟨_, _, h, -⟩
    cases h
  · constructor
    · rintro ⟨_, w', h, hk⟩
      cases h
      exact brings_pure.mp hk
    · exact fun hv => ⟨none, w, rfl, brings_pure.mpr hv⟩
  · constructor
    · rintro ⟨_, w', h, hk⟩
      cases h
      obtain ⟨_, w'', hcheck, hv⟩ := brings_bind.mp hk
      exact ⟨⟨(), w'', hcheck⟩, brings_pure.mp hv⟩
    · rintro ⟨⟨_, w'', hcheck⟩, hv⟩
      exact ⟨some r, w, rfl, brings_bind.mpr ⟨(), w'', hcheck, brings_pure.mpr hv⟩⟩

/-- A type gives what it decodes, where that is known to be valid. -/
theorem FieldType.brings_decodeBy_iff {t : FieldType}
    (hvalid : ∀ v w', (t.decodeInput follow input).run w = (.ok v, w') →
      Settled w' (t.validateBy follow v) ()) :
    Brings w (t.decodeBy follow input) v ↔ Brings w (t.decodeInput follow input) v := by
  constructor
  · intro h
    obtain ⟨v₁, w₁, hdecoded, h⟩ := brings_bind.mp h
    obtain ⟨_, w₂, -, h⟩ := brings_bind.mp h
    obtain rfl := brings_pure.mp h
    exact ⟨w₁, hdecoded⟩
  · rintro ⟨w₁, h⟩
    refine brings_bind.mpr ⟨v, w₁, h, ?_⟩
    exact (brings_settled (hvalid v w₁ h)).mpr (brings_pure.mpr rfl)

/-! ### Ways that are known -/

/-- What succeeds once is settled, and once an id has been taken, later worlds take the same ids. -/
structure Consistent (follow : LookupType → RowRef → Decoding τ Value) : Prop where
  steady : ∀ l r, Steady (follow l r)
  stable : ∀ {l : LookupType} {r : RowRef} {w w' later : World τ} {v : Value},
    (follow l r).run w = (.ok v, w') → w'.Remembers later →
      ∀ r', Succeeds later (follow l r') ↔ Succeeds w (follow l r')

section Consistent

variable (hc : Consistent follow)

include hc

/-- After a reference has been decoded, the same is decoded as before. -/
theorem LookupType.decode_stable {w' later : World τ}
    (h : (l.decode follow input).run w = (.ok v, w')) (hv : v.isNull = false)
    (hlater : w'.Remembers later) (input' : Input) (v' : Value) :
    Brings later (l.decode follow input') v' ↔ Brings w (l.decode follow input') v' := by
  rcases decode_cases h with ⟨-, rfl, -⟩ | ⟨r, -, -, hcheck⟩
  · cases hv
  · obtain ⟨id, x, -, hx⟩ := check_run hcheck
    have hsame (r' : RowRef) : Succeeds later (l.check follow r') ↔ Succeeds w (l.check follow r') := by
      rw [succeeds_check, succeeds_check, hc.stable hx hlater r']
    rw [brings_decode, brings_decode, funext fun r' => propext (hsame r')]

theorem LookupType.unmoved_decode : Unmoved (l.decode follow ·) := by
  intro input v w w' h input' v'
  rcases decode_cases h with ⟨-, -, rfl⟩ | ⟨r, -, rfl, -⟩
  · rfl
  · exact decode_stable hc h rfl (Std.Refl.refl (r := World.Remembers) w') input' v'

theorem LookupType.settled_validate {w' : World τ}
    (h : (l.decode follow input).run w = (.ok v, w')) : Settled w' (l.validate follow v) () := by
  rcases decode_cases h with ⟨-, rfl, -⟩ | ⟨r, -, rfl, hcheck⟩
  · exact Settled.pure w' ()
  · show Settled w' (if r.isEmpty then Pure.pure () else l.check follow r) ()
    split
    · exact Settled.pure w' ()
    · exact ((Steady.sequential.within _).lookupCheck (hc.steady l) r w () w' hcheck).2

/-! ### Whole types -/

theorem LookupType.brings_decodeBy :
    Brings w ((FieldType.element (.lookup l)).decodeBy follow input) v ↔
      Brings w (l.decode follow input) v :=
  FieldType.brings_decodeBy_iff fun _ _ h => settled_validate hc h

/-- A reference that has been decoded says nothing, and nothing was done, or the same is decoded ever
after. -/
theorem LookupType.decodeBy_later {w' : World τ}
    (h : ((FieldType.element (.lookup l)).decodeBy follow input).run w = (.ok v, w')) :
    v = .null ∧ w' = w ∨ v.isNull = false ∧ ∀ later, w'.Remembers later → ∀ input' v',
      Brings later ((FieldType.element (.lookup l)).decodeBy follow input') v' ↔
        Brings w ((FieldType.element (.lookup l)).decodeBy follow input') v' := by
  obtain ⟨v₁, w₁, hdecoded, h⟩ := run_bind_ok h
  obtain ⟨_, w₂, hvalid, h⟩ := run_bind_ok h
  cases h
  rcases decode_cases hdecoded with ⟨-, rfl, rfl⟩ | ⟨r, -, rfl, -⟩
  · cases hvalid
    exact .inl ⟨rfl, rfl⟩
  · refine .inr ⟨rfl, fun later hlater input' v' => ?_⟩
    rw [brings_decodeBy hc, brings_decodeBy hc]
    have hkept :=
      ((Steady.sequential.within _).lookupValidate (hc.steady l) (.lookup r) w₁ () w' hvalid).1
    exact decode_stable hc hdecoded rfl
      (IsTrans.trans (r := World.Remembers) _ _ _ hkept hlater) input' v'

theorem FieldType.brings_decodeBy_reference :
    Brings w ((FieldType.element (.lookup l)).decodeBy follow input) v ↔
      RowRef.Reads (fun r => Succeeds w (l.check follow r)) input v := by
  rw [LookupType.brings_decodeBy hc, LookupType.brings_decode]

theorem FieldType.settled_validate_references {w' : World τ}
    (h : ((FieldType.list (.lookup l)).decodeInput follow input).run w = (.ok v, w')) :
    Settled w' ((FieldType.list (.lookup l)).validateBy follow v) () := by
  obtain ⟨found, w₁, -, h⟩ := run_bind_ok h
  cases found with
  | none =>
    cases h
    exact Settled.pure w' ()
  | some inputs =>
    obtain ⟨vs, w₂, hvs, h⟩ := run_bind_ok h
    cases h
    refine Settled.forM fun v hv => ?_
    obtain ⟨input, w₃, w₄, hrun, hlater⟩ :=
      exists_run_of_mapM ((Steady.sequential.within _).lookupDecode (hc.steady l)) hvs v hv
    exact (LookupType.settled_validate hc hrun).later hlater

theorem FieldType.brings_decodeInput_references :
    Brings w ((FieldType.list (.lookup l)).decodeInput follow input) v ↔
      RowRef.ReadsList (fun r => Succeeds w (l.check follow r)) input v := by
  unfold FieldType.decodeInput RowRef.ReadsList
  rw [brings_bind, run_outcome]
  rcases FieldType.items input with e | _ | inputs
  · refine iff_of_false ?_ not_false
    rintro ⟨_, _, h, -⟩
    cases h
  · constructor
    · rintro ⟨_, w', h, hv⟩
      cases h
      exact brings_pure.mp hv
    · exact fun hv => ⟨none, w, rfl, brings_pure.mpr hv⟩
  · have heach (vs : List Value) :
        Brings w (inputs.mapM (l.decode follow ·)) vs ↔
          List.Forall₂ (RowRef.Reads fun r => Succeeds w (l.check follow r)) inputs vs := by
      rw [brings_mapM (LookupType.unmoved_decode hc)]
      simp only [LookupType.brings_decode]
    constructor
    · rintro ⟨_, w', h, hv⟩
      cases h
      obtain ⟨vs, w'', hvs, hv⟩ := brings_bind.mp hv
      exact ⟨vs, (heach vs).mp ⟨w'', hvs⟩, brings_pure.mp hv⟩
    · rintro ⟨vs, hreads, hv⟩
      obtain ⟨w'', hvs⟩ := (heach vs).mpr hreads
      exact ⟨some inputs, w, rfl, brings_bind.mpr ⟨vs, w'', hvs, brings_pure.mpr hv⟩⟩

theorem FieldType.brings_decodeBy_references :
    Brings w ((FieldType.list (.lookup l)).decodeBy follow input) v ↔
      RowRef.ReadsList (fun r => Succeeds w (l.check follow r)) input v := by
  rw [FieldType.brings_decodeBy_iff fun _ _ h => settled_validate_references hc h,
    brings_decodeInput_references hc]

end Consistent

end Follow

/-! ### Chains of references -/

section Chains

variable {α β : Type} {w w' later : World τ}

/-- The decoding has the same outcome in all worlds and changes none. -/
def Constant (m : Decoding τ α) : Prop := ∃ outcome, ∀ w, m.run w = (outcome, w)

theorem Constant.ofExcept (a : Except TypeError α) : Constant (liftExcept a : Decoding τ α) :=
  ⟨a, run_liftExcept a⟩

theorem Constant.bind {m : Decoding τ α} {k : α → Decoding τ β} (hm : Constant m)
    (hk : ∀ a, Constant (k a)) : Constant (m >>= k) := by
  obtain ⟨outcome, hm⟩ := hm
  cases outcome with
  | error e => exact ⟨.error e, fun w => by rw [run_bind, hm]⟩
  | ok a =>
    obtain ⟨outcome, hk⟩ := hk a
    exact ⟨outcome, fun w => by rw [run_bind, hm]; exact hk w⟩

theorem Constant.brings {m : Decoding τ α} (hm : Constant m) (w w' : World τ) (a : α) :
    Brings w m a ↔ Brings w' m a := by
  obtain ⟨outcome, hm⟩ := hm
  rw [brings_iff, brings_iff, hm, hm]

variable {follow : LookupType → RowRef → Decoding τ Value}

section Alone

variable {e : ElementType} (he : ∀ l, e ≠ .lookup l)

include he

theorem ElementType.constant_decode (input : Input) : Constant (e.decode follow input) := by
  obtain ⟨outcome, -, h⟩ := decode_alone input he
  rw [h follow]
  exact Constant.ofExcept outcome

theorem ElementType.constant_validate (v : Value) : Constant (e.validate follow v) := by
  obtain ⟨outcome, -, h⟩ := validate_alone v he
  rw [h follow]
  exact Constant.ofExcept outcome

theorem ElementType.constant_decodeBy (input : Input) :
    Constant ((FieldType.element e).decodeBy follow input) :=
  (constant_decode he input).bind fun v =>
    (constant_validate he v).bind fun _ => ⟨.ok v, fun _ => rfl⟩

end Alone

namespace Target

variable {t : Target} {r : RowRef} {v : Value}

theorem brings_idBy :
    Brings w (t.idBy follow r) v ↔
      v.isNull = false ∧ Brings w (t.idType.decodeBy follow (.value (.text r.id))) v := by
  constructor
  · intro h
    obtain ⟨v₁, w', hrun, h⟩ := brings_bind.mp h
    cases hnull : v₁.isNull with
    | true =>
      rw [hnull] at h
      obtain ⟨_, h⟩ := h
      cases h
    | false =>
      rw [hnull] at h
      obtain rfl := brings_pure.mp h
      exact ⟨hnull, (brings_adapt _).mp ⟨w', hrun⟩⟩
  · rintro ⟨hnull, hv⟩
    obtain ⟨w', hrun⟩ := (brings_adapt (.lookupId r.id)).mpr hv
    refine brings_bind.mpr ⟨v, w', hrun, ?_⟩
    rw [hnull]
    exact brings_pure.mpr rfl

/-- The world that the id type leaves behind is the final one. -/
theorem idBy_run (h : (t.idBy follow r).run w = (.ok v, w')) :
    v.isNull = false ∧ (t.idType.decodeBy follow (.value (.text r.id))).run w = (.ok v, w') := by
  have hnull := (brings_idBy.mp ⟨w', h⟩).1
  obtain ⟨v₁, w₁, hrun, h⟩ := run_bind_ok h
  cases hnull₁ : v₁.isNull with
  | true =>
    rw [hnull₁] at h
    cases h
  | false =>
    rw [hnull₁] at h
    cases h
    refine ⟨hnull, ?_⟩
    have hadapt : ((t.idType.decodeBy follow (.value (.text r.id))).run w).2 = w' :=
      congrArg Prod.snd hrun
    have hv := brings_iff.mp ((brings_adapt (.lookupId r.id)).mp ⟨w', hrun⟩)
    exact Prod.ext hv hadapt

theorem succeeds_idBy :
    Succeeds w (t.idBy follow r) ↔
      ∃ v, v.isNull = false ∧ Brings w (t.idType.decodeBy follow (.value (.text r.id))) v :=
  exists_congr fun _ => brings_idBy

/-- The ids that are taken by a target, as by its id type. -/
theorem idBy_stable (hc : Consistent follow) (h : (t.idBy follow r).run w = (.ok v, w'))
    (hlater : w'.Remembers later) (r' : RowRef) :
    Succeeds later (t.idBy follow r') ↔ Succeeds w (t.idBy follow r') := by
  obtain ⟨hnull, h⟩ := idBy_run h
  have hsame (v' : Value) : Brings later (t.idType.decodeBy follow (.value (.text r'.id))) v' ↔
      Brings w (t.idType.decodeBy follow (.value (.text r'.id))) v' := by
    cases hid : t.idType with
    | list e =>
      -- no text is read as a list
      rw [hid] at h
      cases h
    | element e =>
      rw [hid] at h
      by_cases he : ∃ l, e = .lookup l
      · obtain ⟨l, rfl⟩ := he
        rcases LookupType.decodeBy_later hc h with ⟨rfl, -⟩ | ⟨-, hsame⟩
        · cases hnull
        · exact hsame later hlater _ v'
      · have hconstant : Constant ((FieldType.element e).decodeBy follow (.value (.text r'.id))) :=
          ElementType.constant_decodeBy (fun l hl => he ⟨l, hl⟩) _
        exact hconstant.brings later w v'
  simp only [succeeds_idBy, hsame]

end Target

variable [DictionarySource τ]

/-- However long a chain is: once an id has gone through, the chain is settled. -/
theorem LookupType.typedIdWithin_consistent (hops : Nat) :
    Consistent fun l r => (l.typedIdWithin r hops : Decoding τ Value) where
  steady := Steady.sequential.typedIdWithin Steady.resolve (Steady.throw _) hops
  stable := by
    induction hops with
    | zero =>
      intro l r w w' later v h
      cases h
    | succ hops ih =>
      have hc : Consistent fun l r => (l.typedIdWithin r hops : Decoding τ Value) :=
        ⟨Steady.sequential.typedIdWithin Steady.resolve (Steady.throw _) hops, ih⟩
      intro l r w w' later v h hlater r'
      rw [typedIdWithin_succ] at h ⊢
      obtain ⟨t, w₁, htarget, h⟩ := run_bind_ok h
      obtain ⟨-, hsettled⟩ := Steady.resolve l w t w₁ htarget
      have hkept : w₁.Remembers w' := (Steady.sequential.idBy (fun l _ => hc.steady l) r w₁ v w' h).1
      have hknown := hsettled later (IsTrans.trans (r := World.Remembers) _ _ _ hkept hlater)
      rw [succeeds_bind_of_run htarget, succeeds_bind_of_run hknown]
      exact Target.idBy_stable hc h hlater r'

end Chains

/-! ### Types that decode alike -/

section Alike

variable [DictionarySource τ] {w : World τ} {l l' : LookupType}

/-- The id suits the primary field that the reference leads to. -/
def LookupType.Takes (l : LookupType) (w : World τ) (id : String) : Prop :=
  Succeeds w (l.typedId { id } : Decoding τ Value)

/-- Both take the same ids. -/
def LookupType.TakesAs (l l' : LookupType) (w : World τ) : Prop :=
  ∀ id, Text.nonBlank? id = some id → (l.Takes w id ↔ l'.Takes w id)

/-- The types give the same value for the source, or both fail. -/
def FieldType.DecodesAs (t t' : FieldType) (w : World τ) (source : Source) : Prop :=
  ((t.decode source : Decoding τ Value).run w).1.toOption =
    ((t'.decode source : Decoding τ Value).run w).1.toOption

theorem LookupType.typedIdWithin_id (l : LookupType) (r : RowRef) (hops : Nat) :
    (l.typedIdWithin r hops : Decoding τ Value) = l.typedIdWithin { id := r.id } hops := by
  cases hops <;> rfl

theorem LookupType.succeeds_check_iff (r : RowRef) (hid : Text.nonBlank? r.id = some r.id) :
    Succeeds w (l.check LookupType.typedId r) ↔ l.Takes w r.id := by
  have hsame : (l.typedId r : Decoding τ Value) = l.typedId { id := r.id } :=
    l.typedIdWithin_id r _
  rw [succeeds_check, hid, hsame]
  exact and_iff_right rfl

/-- References that take the same ids are read alike from every input. -/
theorem LookupType.check_of_takes (h : ∀ id, Text.nonBlank? id = some id → l.Takes w id → l'.Takes w id)
    (input : Input) (r : RowRef) (hread : RowRef.ofInput input = .ok (some r))
    (hr : Succeeds w (l.check LookupType.typedId r)) :
    Succeeds w (l'.check LookupType.typedId r) := by
  obtain ⟨id, hid⟩ := Option.isSome_iff_exists.mp (succeeds_check.mp hr).1
  obtain rfl : id = r.id :=
    (Text.eq_trim_of_nonBlank? hid).trans (RowRef.isTrimmed_id_ofInput hread)
  exact (succeeds_check_iff r hid).mpr (h r.id hid ((succeeds_check_iff r hid).mp hr))

namespace FieldType

theorem decodesAs_iff {t t' : FieldType} {source : Source} :
    t.DecodesAs t' w source ↔ ∀ v, Brings w (t.decode source : Decoding τ Value) v ↔
      Brings w (t'.decode source : Decoding τ Value) v :=
  toOption_eq_iff

theorem brings_decode_reference {source : Source} {v : Value} :
    Brings w ((FieldType.element (.lookup l)).decode source : Decoding τ Value) v ↔
      RowRef.Reads (fun r => Succeeds w (l.check LookupType.typedId r)) source.input v :=
  brings_decodeBy_reference (LookupType.typedIdWithin_consistent _)

theorem brings_decode_references {source : Source} {v : Value} :
    Brings w ((FieldType.list (.lookup l)).decode source : Decoding τ Value) v ↔
      RowRef.ReadsList (fun r => Succeeds w (l.check LookupType.typedId r)) source.input v :=
  brings_decodeBy_references (LookupType.typedIdWithin_consistent _)

/-- References that decode every source alike are those that take the same ids. -/
theorem references_alike_iff :
    (∀ source, (FieldType.element (.lookup l)).DecodesAs (.element (.lookup l')) w source) ↔
      l.TakesAs l' w := by
  simp only [decodesAs_iff, brings_decode_reference]
  constructor
  · intro h id hid
    have hsource := h (.value (.lookup { id })) (.lookup { id })
    change RowRef.Reads _ (.value (.lookup { id })) _ ↔ RowRef.Reads _ (.value (.lookup { id })) _
      at hsource
    rwa [RowRef.reads_lookup hid, RowRef.reads_lookup hid,
      LookupType.succeeds_check_iff { id } hid, LookupType.succeeds_check_iff { id } hid] at hsource
  · intro h source v
    exact ⟨RowRef.Reads.mono fun r =>
        LookupType.check_of_takes (fun id hid => (h id hid).mp) source.input r,
      RowRef.Reads.mono fun r =>
        LookupType.check_of_takes (fun id hid => (h id hid).mpr) source.input r⟩

theorem listed_references_alike_iff :
    (∀ source, (FieldType.list (.lookup l)).DecodesAs (.list (.lookup l')) w source) ↔
      l.TakesAs l' w := by
  simp only [decodesAs_iff, brings_decode_references]
  constructor
  · intro h id hid
    have hsource := h (.value (.list [.lookup { id }])) (.list [.lookup { id }])
    change RowRef.ReadsList _ (.value (.list [.lookup { id }])) _ ↔
      RowRef.ReadsList _ (.value (.list [.lookup { id }])) _ at hsource
    rwa [RowRef.readsList_lookup hid, RowRef.readsList_lookup hid,
      LookupType.succeeds_check_iff { id } hid, LookupType.succeeds_check_iff { id } hid] at hsource
  · intro h source v
    exact ⟨RowRef.ReadsList.mono (LookupType.check_of_takes fun id hid => (h id hid).mp),
      RowRef.ReadsList.mono (LookupType.check_of_takes fun id hid => (h id hid).mpr)⟩

/-- What a context matters for is the type of references, alone or in lists. -/
theorem ofSpec_cases (spec : FieldSpec) :
    (∃ t : FieldType, t.reference? = none ∧ ∀ cell ctx, ofSpec cell spec ctx = t) ∨
      ∃ path, (∀ cell ctx, ofSpec cell spec ctx = .element (.lookup (.ofContext cell path ctx))) ∨
        ∀ cell ctx, ofSpec cell spec ctx = .list (.lookup (.ofContext cell path ctx)) := by
  have helement (kind : Kind) :
      (∃ e : ElementType, (∀ l, e ≠ .lookup l) ∧
        ∀ cell ctx, ElementType.ofKind cell kind spec.typeSpec ctx = e) ∨
      ∃ path, ∀ cell ctx, ElementType.ofKind cell kind spec.typeSpec ctx =
        .lookup (.ofContext cell path ctx) := by
    cases kind with
    | lookup => exact .inr ⟨_, fun _ _ => rfl⟩
    | _ => exact .inl ⟨_, by simp, fun _ _ => rfl⟩
  by_cases hlist : spec.resolvedKind = .list
  · have hof (cell : Cell) (ctx : TypeContext) : ofSpec cell spec ctx =
        .list (.ofKind cell ((spec.typeSpec.map (·.kind)).getD .none) spec.typeSpec ctx) := by
      unfold ofSpec ofKind
      rw [if_pos hlist]
    simp only [hof]
    rcases helement ((spec.typeSpec.map (·.kind)).getD .none) with ⟨e, he, hsame⟩ | ⟨path, hpath⟩
    · refine .inl ⟨.list e, ?_, fun cell ctx => congrArg FieldType.list (hsame cell ctx)⟩
      cases e <;> first | rfl | exact absurd rfl (he _)
    · exact .inr ⟨path, .inr fun cell ctx => congrArg FieldType.list (hpath cell ctx)⟩
  · have hof (cell : Cell) (ctx : TypeContext) : ofSpec cell spec ctx =
        .element (.ofKind cell spec.resolvedKind spec.typeSpec ctx) := by
      unfold ofSpec ofKind
      rw [if_neg hlist]
    simp only [hof]
    rcases helement spec.resolvedKind with ⟨e, he, hsame⟩ | ⟨path, hpath⟩
    · refine .inl ⟨.element e, ?_, fun cell ctx => congrArg FieldType.element (hsame cell ctx)⟩
      cases e <;> first | rfl | exact absurd rfl (he _)
    · exact .inr ⟨path, .inl fun cell ctx => congrArg FieldType.element (hpath cell ctx)⟩

theorem ofSpec_eq_of_no_reference {spec : FieldSpec} {cell cell' : Cell} {ctx ctx' : TypeContext}
    (h : (ofSpec cell spec ctx).reference? = none) :
    ofSpec cell spec ctx = ofSpec cell' spec ctx' := by
  obtain ⟨t, -, hsame⟩ | ⟨path, hreference | hlist⟩ := ofSpec_cases spec
  · rw [hsame, hsame]
  · rw [hreference] at h
    cases h
  · rw [hlist] at h
    cases h

/-- One definition in two contexts: its types decode alike unless they are of references that do not
take the same ids. -/
theorem ofSpec_alike_iff (spec : FieldSpec) (cell cell' : Cell) (ctx ctx' : TypeContext)
    (w : World τ) :
    (∀ source, (ofSpec cell spec ctx).DecodesAs (ofSpec cell' spec ctx') w source) ↔
      ∀ l l', (ofSpec cell spec ctx).reference? = some l →
        (ofSpec cell' spec ctx').reference? = some l' → l.TakesAs l' w := by
  obtain ⟨t, hnone, hsame⟩ | ⟨path, hreference | hlist⟩ := ofSpec_cases spec
  · rw [hsame, hsame, hnone]
    exact iff_of_true (fun _ => rfl) fun _ _ h => by cases h
  · rw [hreference, hreference, references_alike_iff]
    simp [reference?]
  · rw [hlist, hlist, listed_references_alike_iff]
    simp [reference?]

end FieldType

end Alike

end TenantSchema
