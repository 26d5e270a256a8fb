import TenantSchema.Proofs.SettledDecoding

/-!
# Types whose references are known

Checking a type resolves the reference that it reads by, the one that the id type of the target reads
by, and so on to the end of the chain. After a check that succeeds, the chain is known. Whatever the
type is used for from then on, no dictionary is looked for and none is missed. The check breaks
down if the chain goes on beyond the depth of the stack, as every circle does, and only then.
-/

namespace TenantSchema

variable {τ : Type} {w w' : World τ}

namespace FieldType

/-- The check of the type follows its reference, and nothing else is wrong with it. -/
structure KnownBy (known : LookupType → Prop) (t : FieldType) : Prop where
  reference : ∀ l, t.reference? = some l → known l
  plain : t.reference? = none → ∀ {τ : Type} (follow : LookupType → Decoding τ Unit) (w : World τ),
    (t.validateDescriptorBy follow).run w = (.ok (), w)

theorem KnownBy.mono {known known' : LookupType → Prop} {t : FieldType} (ht : t.KnownBy known)
    (h : ∀ l, known l → known' l) : t.KnownBy known' :=
  ⟨fun l hl => h l (ht.reference l hl), ht.plain⟩

theorem validateDescriptorBy_reference {t : FieldType} {l : LookupType}
    (h : t.reference? = some l) (follow : LookupType → Decoding τ Unit) :
    t.validateDescriptorBy follow = follow l := by
  rcases t with e | e <;> cases e <;> cases h <;> rfl

/-- The check of a type without a reference has the same outcome everywhere, and does not break
down. -/
theorem validateDescriptorBy_plain {t : FieldType} (h : t.reference? = none) :
    ∃ outcome, Unbroken outcome ∧
      ∀ {τ : Type} (follow : LookupType → Decoding τ Unit) (w : World τ),
        (t.validateDescriptorBy follow).run w = (outcome, w) := by
  have helement {e : ElementType} (he : ∀ l, e ≠ .lookup l) : ∃ outcome, Unbroken outcome ∧
      ∀ {τ : Type} (follow : LookupType → Decoding τ Unit) (w : World τ),
        (e.validateDescriptor follow).run w = (outcome, w) := by
    cases e with
    | undefined cause =>
      refine ⟨.error (ElementType.missing cause), unbroken_error.mpr ?_, fun _ _ => rfl⟩
      cases cause <;> rfl
    | signed t => exact ⟨_, t.validateDescriptor_findsDefects.unbroken, fun _ => run_liftExcept _⟩
    | unsigned t => exact ⟨_, t.validateDescriptor_findsDefects.unbroken, fun _ => run_liftExcept _⟩
    | float t => exact ⟨_, t.validateDescriptor_findsDefects.unbroken, fun _ => run_liftExcept _⟩
    | duration t => exact ⟨_, t.validateDescriptor_findsDefects.unbroken, fun _ => run_liftExcept _⟩
    | lookup l => exact absurd rfl (he l)
    | _ => exact ⟨.ok (), unbroken_ok (), fun _ _ => rfl⟩
  cases t with
  | element e => exact helement (by rintro l rfl; cases h)
  | list e =>
    by_cases he : ∃ cause, e = .undefined cause
    · obtain ⟨cause, rfl⟩ := he
      exact ⟨.error (.descriptor .list .listElement), unbroken_error.mpr rfl, fun _ _ => rfl⟩
    · obtain ⟨outcome, hunbroken, hrun⟩ := helement (e := e) (by rintro l rfl; cases h)
      refine ⟨outcome, hunbroken, fun follow w => ?_⟩
      rw [← hrun follow w]
      cases e <;> first | rfl | exact absurd ⟨_, rfl⟩ he

/-- What a check that succeeded has come across. -/
theorem knownBy_of_run {t : FieldType} {follow : LookupType → Decoding τ Unit}
    {known : LookupType → Prop} (h : (t.validateDescriptorBy follow).run w = (.ok (), w'))
    (hfollow : ∀ l, (follow l).run w = (.ok (), w') → known l) : t.KnownBy known := by
  refine ⟨fun l hl => hfollow l ?_, fun hnone => ?_⟩
  · rw [validateDescriptorBy_reference hl] at h
    exact h
  · obtain ⟨outcome, -, hrun⟩ := validateDescriptorBy_plain hnone
    rw [hrun follow w] at h
    cases h
    exact fun follow w => hrun follow w

theorem KnownBy.run {t : FieldType} {known : LookupType → Prop} (ht : t.KnownBy known)
    {follow : LookupType → Decoding τ Unit} (h : ∀ l, known l → (follow l).run w = (.ok (), w)) :
    (t.validateDescriptorBy follow).run w = (.ok (), w) := by
  cases hr : t.reference? with
  | none => exact ht.plain hr follow w
  | some l =>
    rw [validateDescriptorBy_reference hr]
    exact h l (ht.reference l hr)

end FieldType

/-! ### Chains -/

namespace LookupType

variable {l : LookupType} {hops : Nat}

/-- The target is known in this world, and so is all that its id type leads to in so many hops. -/
def Known (w : World τ) : Nat → LookupType → Prop
  | 0, _ => False
  | hops + 1, l => ∃ t, l.target? w = some t ∧ t.idType.KnownBy (Known w hops)

theorem Known.later (h : l.Known w hops) (hw : w.Remembers w') : l.Known w' hops := by
  induction hops generalizing l with
  | zero => exact h
  | succ hops ih =>
    obtain ⟨t, ht, hid⟩ := h
    exact ⟨t, target?_later ht hw, hid.mono fun l hl => ih hl⟩

/-- A chain that is known in so many hops is known in more. -/
theorem Known.mono (h : l.Known w hops) {hops' : Nat} (hle : hops ≤ hops') : l.Known w hops' := by
  induction hops generalizing l hops' with
  | zero => exact h.elim
  | succ hops ih =>
    obtain ⟨t, ht, hid⟩ := h
    cases hops' with
    | zero => omega
    | succ hops' => exact ⟨t, ht, hid.mono fun l hl => ih hl (by omega)⟩

variable [DictionarySource τ]

/-- After a reference has been checked, the chain that starts with it is known. -/
theorem known_of_run (h : (l.validateTargetWithin hops : Decoding τ Unit).run w = (.ok (), w')) :
    l.Known w' hops := by
  induction hops generalizing l w with
  | zero => cases h
  | succ hops ih =>
    obtain ⟨t, w₁, htarget, hid⟩ := run_bind_ok h
    have hsteady : Steady (t.idType.validateDescriptorBy fun l =>
        (l.validateTargetWithin hops : Decoding τ Unit)) :=
      Steady.sequential.validateDescriptorBy fun l _ =>
        Steady.sequential.validateTargetWithin Steady.resolve (Steady.throw _) hops l
    refine ⟨t, target?_later (target?_of_resolve htarget).2 (hsteady w₁ () w' hid).1, ?_⟩
    exact FieldType.knownBy_of_run hid fun l hl => ih hl

theorem Known.run (h : l.Known w hops) :
    (l.validateTargetWithin hops : Decoding τ Unit).run w = (.ok (), w) := by
  induction hops generalizing l with
  | zero => exact h.elim
  | succ hops ih =>
    obtain ⟨t, htarget, hid⟩ := h
    show (l.resolve >>= fun t => t.idType.validateDescriptorBy
      fun l => l.validateTargetWithin hops : Decoding τ Unit).run w = _
    rw [run_bind, run_resolve_of_target htarget]
    exact hid.run fun l hl => ih hl

end LookupType

/-! ### Chains that go on -/

namespace LookupType

variable {l : LookupType} {t : Target} {hops : Nat}

/-- So many references behind one another have targets, and then there is one more. -/
def LeadsOn (w : World τ) : Nat → LookupType → Prop
  | 0, _ => True
  | n + 1, l => ∃ t next, l.target? w = some t ∧ t.idType.reference? = some next ∧ LeadsOn w n next

theorem leadsOn_succ_iff {next : LookupType} (ht : l.target? w = some t)
    (hnext : t.idType.reference? = some next) : l.LeadsOn w (hops + 1) ↔ next.LeadsOn w hops := by
  constructor
  · rintro ⟨t', next', ht', hnext', h⟩
    rw [ht] at ht'
    cases ht'
    rw [hnext] at hnext'
    cases hnext'
    exact h
  · exact fun h => ⟨t, next, ht, hnext, h⟩

theorem LeadsOn.of_le {n : Nat} (h : l.LeadsOn w hops) (hle : n ≤ hops) : l.LeadsOn w n := by
  induction n generalizing l hops with
  | zero => trivial
  | succ n ih =>
    cases hops with
    | zero => omega
    | succ hops =>
      obtain ⟨t, next, ht, hnext, hon⟩ := h
      exact ⟨t, next, ht, hnext, ih hon (by omega)⟩

/-- A chain that comes back to its start has no end. -/
theorem leadsOn_of_circle (ht : l.target? w = some t) (hcircle : t.idType.reference? = some l)
    (hops : Nat) : l.LeadsOn w hops := by
  induction hops with
  | zero => trivial
  | succ hops ih => exact ⟨t, l, ht, hcircle, ih⟩

variable [DictionarySource τ] {outcome : Except TypeError Unit}

/-- A check breaks down if the chain goes on for more hops than are left, and only then. -/
theorem validateTargetWithin_breaks_iff
    (h : (l.validateTargetWithin hops : Decoding τ Unit).run w = (outcome, w')) :
    (l.LeadsOn w' hops → outcome = .error (.breakdown .exhausted)) ∧
      (¬ l.LeadsOn w' hops → Unbroken outcome) := by
  -- on the hops left: what a target leads to is checked with one less
  induction hops generalizing l w with
  | zero =>
    cases h
    exact ⟨fun _ => rfl, fun hno => absurd trivial hno⟩
  | succ hops ih =>
    have hsteps : (l.validateTargetWithin (hops + 1) : Decoding τ Unit) = l.resolve >>= fun t =>
      t.idType.validateDescriptorBy fun l => l.validateTargetWithin hops := rfl
    rw [hsteps] at h
    rcases hresolve : (l.resolve : Decoding τ Target).run w with ⟨e | t, w₁⟩
    · rw [run_bind_of_error hresolve] at h
      cases h
      obtain ⟨hnone, -, hunbroken⟩ := error_of_resolve hresolve
      refine ⟨?_, fun _ => unbroken_error.mpr hunbroken⟩
      rintro ⟨t, next, ht, -⟩
      rw [hnone] at ht
      cases ht
    · rw [run_bind_of_ok hresolve] at h
      have hkept : w₁.Remembers w' := by
        have hkeeps := KeepsE.sequential.validateDescriptorBy (t := t.idType) (fun l _ =>
          KeepsE.sequential.validateTargetWithin (τ := τ) resolve_remembers (KeepsE.throw _) hops l) w₁
        rwa [h] at hkeeps
      have ht : l.target? w' = some t := target?_later (target?_of_resolve hresolve).2 hkept
      cases hnext : t.idType.reference? with
      | none =>
        obtain ⟨outcome', hunbroken, hrun⟩ := FieldType.validateDescriptorBy_plain hnext
        rw [hrun] at h
        cases h
        refine ⟨?_, fun _ => hunbroken⟩
        rintro ⟨t', next, ht', hnext', -⟩
        rw [ht] at ht'
        cases ht'
        rw [hnext] at hnext'
        cases hnext'
      | some next =>
        rw [FieldType.validateDescriptorBy_reference hnext] at h
        rw [leadsOn_succ_iff ht hnext]
        exact ih h

/-- A reference whose target is known by itself is resolved once, and that is as far as its check gets,
however deep the stack. -/
theorem run_of_circle {w₁ : World τ} (h : (l.resolve : Decoding τ Target).run w = (.ok t, w₁))
    (hcircle : t.idType.reference? = some l) (hops : Nat) :
    (l.validateTargetWithin (hops + 1) : Decoding τ Unit).run w =
      (.error (.breakdown .exhausted), w₁) := by
  have hknown (hops : Nat) : (l.validateTargetWithin hops : Decoding τ Unit).run w₁ =
      (.error (.breakdown .exhausted), w₁) := by
    induction hops with
    | zero => rfl
    | succ hops ih =>
      refine (run_bind_of_ok (run_resolve_of_target (target?_of_resolve h).2)).trans ?_
      rw [FieldType.validateDescriptorBy_reference hcircle, ih]
  refine (run_bind_of_ok h).trans ?_
  rw [FieldType.validateDescriptorBy_reference hcircle, hknown]

end LookupType

namespace FieldType

variable {t : FieldType}

/-- The references that the type reads by go on for more than so many behind the first one. -/
def LeadsOn (w : World τ) (depth : Nat) (t : FieldType) : Prop :=
  ∃ l, t.reference? = some l ∧ l.LeadsOn w (depth + 1)

variable [DictionarySource τ] {outcome : Except TypeError Unit}

/-- The check of a type breaks down if its references go on beyond the depth of the stack. -/
theorem validateDescriptor_breaks_iff
    (h : (t.validateDescriptor : Decoding τ Unit).run w = (outcome, w')) :
    (t.LeadsOn w' (DictionarySource.depth τ) → outcome = .error (.breakdown .exhausted)) ∧
      (¬ t.LeadsOn w' (DictionarySource.depth τ) → Unbroken outcome) := by
  unfold validateDescriptor at h
  cases hl : t.reference? with
  | none =>
    obtain ⟨outcome', hunbroken, hrun⟩ := validateDescriptorBy_plain hl
    rw [hrun] at h
    cases h
    refine ⟨?_, fun _ => hunbroken⟩
    rintro ⟨l, hl', -⟩
    rw [hl] at hl'
    cases hl'
  | some l =>
    rw [validateDescriptorBy_reference hl] at h
    obtain ⟨hbreaks, hunbroken⟩ := LookupType.validateTargetWithin_breaks_iff h
    refine ⟨?_, fun hno => hunbroken fun hon => hno ⟨l, hl, hon⟩⟩
    rintro ⟨l', hl', hon⟩
    rw [hl] at hl'
    cases hl'
    exact hbreaks hon

end FieldType

/-! ### Answers without a lookup -/

section Answered

variable {α β : Type}

/-- In this world the decoding has an outcome that misses no dictionary, and changes nothing. -/
structure Answered (w : World τ) (m : Decoding τ α) : Prop where
  world : (m.run w).2 = w
  outcome : MissesNone (m.run w).1

theorem Answered.of_run {m : Decoding τ α} {a : Except TypeError α} (h : m.run w = (a, w))
    (ha : MissesNone a) : Answered w m := by
  constructor
  · rw [h]
  · rw [h]
    exact ha

theorem Answered.bind_of_run {m : Decoding τ α} {k : α → Decoding τ β} {a : α}
    (hm : m.run w = (.ok a, w)) (hk : Answered w (k a)) : Answered w (m >>= k) := by
  have hrun : (m >>= k).run w = (k a).run w := by rw [run_bind, hm]
  exact ⟨by rw [hrun, hk.world], by rw [hrun]; exact hk.outcome⟩

theorem Answered.bind {m : Decoding τ α} {k : α → Decoding τ β} (hm : Answered w m)
    (hk : ∀ a, Answered w (k a)) : Answered w (m >>= k) := by
  obtain ⟨hworld, houtcome⟩ := hm
  rcases hrun : m.run w with ⟨e | a, w₁⟩
  · rw [hrun] at hworld houtcome
    obtain rfl := hworld
    refine Answered.of_run (a := .error e) ?_ (missesNone_error.mpr (missesNone_error.mp houtcome))
    rw [run_bind, hrun]
  · rw [hrun] at hworld
    obtain rfl := hworld
    exact Answered.bind_of_run hrun (hk a)

theorem Answered.adapt (id : String) {m : Decoding τ α} (hm : Answered w m) :
    Answered w (ExceptT.adapt (TypeError.lookupId id) m) := by
  obtain ⟨hworld, houtcome⟩ := hm
  refine ⟨hworld, ?_⟩
  show MissesNone ((m.run w).1.mapError (TypeError.lookupId id))
  cases hout : (m.run w).1 with
  | error e => exact missesNone_error.mpr (houtcome e hout)
  | ok a => exact missesNone_ok a

theorem Answered.sequential : Sequential (τ := τ) fun m => Answered w m where
  pure a := Answered.of_run rfl (missesNone_ok a)
  throw _ he := Answered.of_run rfl (missesNone_error.mpr he)
  bind := Answered.bind
  adapt id _ hm := hm.adapt id

/-- The id of a known reference is decoded from what is known. -/
theorem LookupType.Known.answered [DictionarySource τ] {l : LookupType} {hops : Nat}
    (h : l.Known w hops) (r : RowRef) : Answered w (l.typedIdWithin r hops : Decoding τ Value) := by
  induction hops generalizing l r with
  | zero => exact h.elim
  | succ hops ih =>
    obtain ⟨t, htarget, hid⟩ := h
    rw [LookupType.typedIdWithin_succ]
    refine Answered.bind_of_run (LookupType.run_resolve_of_target htarget) ?_
    exact Answered.sequential.idBy (fun l hl => ih (hid.reference l hl)) r

end Answered

/-! ### Whole types -/

namespace FieldType

/-- The type is well formed, and all that it leads to is known, so many references behind the first
one at most. -/
def Known (w : World τ) (depth : Nat) (t : FieldType) : Prop :=
  t.KnownBy (LookupType.Known w (depth + 1))

variable {t : FieldType} {depth : Nat}

theorem Known.later (h : t.Known w depth) (hw : w.Remembers w') : t.Known w' depth :=
  h.mono fun _ hl => hl.later hw

theorem Known.deeper (h : t.Known w depth) {depth' : Nat} (hle : depth ≤ depth') :
    t.Known w depth' :=
  h.mono fun _ hl => hl.mono (Nat.add_le_add_right hle 1)

variable [DictionarySource τ]

theorem known_of_run (h : (t.validateDescriptor : Decoding τ Unit).run w = (.ok (), w')) :
    t.Known w' (DictionarySource.depth τ) :=
  knownBy_of_run h fun _ hl => LookupType.known_of_run hl

section Deep

variable (h : t.Known w (DictionarySource.depth τ))

include h

theorem Known.validateDescriptor : (t.validateDescriptor : Decoding τ Unit).run w = (.ok (), w) :=
  h.run fun _ hl => hl.run

theorem Known.decode (source : Source) : Answered w (t.decode source : Decoding τ Value) :=
  (Answered.sequential.within _).decodeBy (fun l hl r => (h.reference l hl).answered r) source.input

theorem Known.validate (v : Value) : Answered w (t.validate v : Decoding τ Unit) :=
  (Answered.sequential.within _).validateBy (fun l hl r => (h.reference l hl).answered r) v

theorem Known.typedId {l : LookupType} (hl : t.reference? = some l) (r : RowRef) :
    Answered w (l.typedId r : Decoding τ Value) :=
  (h.reference l hl).answered r

end Deep

end FieldType

end TenantSchema
