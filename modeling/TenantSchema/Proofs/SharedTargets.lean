import TenantSchema.Proofs.KnownTargets
import TenantSchema.Proofs.Redecoding

/-!
# Targets that are shared

The copies of a reference type have one place for their target. Until it is there, a call that needs
the target asks for it once, and a failure leaves no trace. From the first success on, all copies have
this target, and what they are asked goes on from it: no copy asks for it again. What may still be
asked for is the reference that the target's id type is, if it is one, whose target has a place of its
own.
-/

namespace TenantSchema

/-! ### A record of questions -/

structure Question where
  via : Via
  domain : Int
  path : String
deriving DecidableEq, Repr

/-- A source of dictionaries, with a record of what it has been asked. -/
structure Recorded (τ : Type) where
  store : τ
  asked : List Question := []
deriving Repr

instance {τ : Type} [DictionarySource τ] : DictionarySource (Recorded τ) where
  find via domain path := fun s =>
    let (answer, store) := DictionarySource.find via domain path s.store
    (answer, { store, asked := s.asked ++ [{ via, domain, path }] })
  depth := DictionarySource.depth τ

/-! ### Calls -/

/-- What a reference type can be asked. -/
inductive LookupCall where
  | resolve
  | validateDescriptor
  | typedId (r : RowRef)
  | decode (source : Source)
  | validate (v : Value)
deriving Repr

inductive LookupAnswer where
  | target (t : Target)
  | valid
  | value (v : Value)
deriving Repr

namespace LookupType

/-- Both have the same place for their target. -/
def SharesTarget (l c : LookupType) : Prop := c.cell = l.cell ∧ c.own = l.own

def question (c : LookupType) : Question := { via := c.via, domain := c.domain, path := c.path }

/-- One question for the dictionary. -/
def ask {τ : Type} [DictionarySource τ] (c : LookupType) :
    StateM (World τ) (Except Error (Option FoundDictionary)) :=
  World.onStore (DictionarySource.find c.via c.domain c.path)

end LookupType

/-- The id of a reference, decoded by the id type of its target. -/
def Target.typedId {τ : Type} [DictionarySource τ] (t : Target) (r : RowRef) : Decoding τ Value :=
  t.idBy (fun l r => l.typedIdWithin r (DictionarySource.depth τ)) r

namespace LookupCall

section Programs

variable {τ : Type} [DictionarySource τ]

def on (c : LookupType) : LookupCall → Decoding τ LookupAnswer
  | .resolve => .target <$> c.resolve
  | .validateDescriptor =>
    (fun _ => .valid) <$> (FieldType.element (.lookup c)).validateDescriptor
  | .typedId r => .value <$> c.typedId r
  | .decode source => .value <$> (FieldType.element (.lookup c)).decode source
  | .validate v => (fun _ => .valid) <$> (FieldType.element (.lookup c)).validate v

/-- What a call does with the target; it asks for nothing but what the id type leads to. -/
def withTarget (c : LookupType) (t : Target) : LookupCall → Decoding τ LookupAnswer
  | .resolve => pure (.target t)
  | .validateDescriptor =>
    (fun _ => .valid) <$>
      t.idType.validateDescriptorBy (·.validateTargetWithin (DictionarySource.depth τ))
  | .typedId r => .value <$> t.typedId r
  | .decode source =>
    .value <$> (FieldType.element (.lookup c)).decodeBy (fun _ r => t.typedId r) source.input
  | .validate v =>
    (fun _ => .valid) <$> (FieldType.element (.lookup c)).validateBy (fun _ r => t.typedId r) v

/-- Decoding and checking need the target as far as there is an id. -/
def needsTarget : LookupCall → Bool
  | .resolve | .validateDescriptor | .typedId _ => true
  | .decode source =>
    match RowRef.ofInput source.input with
    | .ok (some r) => (Text.nonBlank? r.id).isSome
    | _ => false
  | .validate (.lookup r) => (Text.nonBlank? r.id).isSome
  | .validate _ => false

end Programs

end LookupCall

/-! ### One resolution at most -/

section Follow

variable {τ : Type} {follow : LookupType → RowRef → Decoding τ Value} {c : LookupType}
  {input : Input} {r : RowRef} {id : String}

theorem LookupType.check_of_nonBlank? (hid : Text.nonBlank? r.id = some id) :
    c.check follow r = follow c r >>= fun _ => pure () := by
  unfold check
  rw [hid]
  rfl

theorem FieldType.validateBy_reference (hid : Text.nonBlank? r.id = some id) :
    (FieldType.element (.lookup c)).validateBy follow (.lookup r) =
      follow c r >>= fun _ => pure () := by
  show (if r.isEmpty then pure () else c.check follow r) = _
  rw [RowRef.isEmpty_of_nonBlank? hid, LookupType.check_of_nonBlank? hid]
  rfl

/-- An id is followed when it is decoded, and once more when the value is checked. -/
theorem FieldType.decodeBy_reference (hread : RowRef.ofInput input = .ok (some r))
    (hid : Text.nonBlank? r.id = some id) :
    (FieldType.element (.lookup c)).decodeBy follow input =
      follow c r >>= fun _ => follow c r >>= fun _ => pure (.lookup r) := by
  have hdecode : (FieldType.element (.lookup c)).decodeInput follow input =
      c.check follow r >>= fun _ => pure (.lookup r) := by
    show c.decode follow input = _
    unfold LookupType.decode
    rw [hread]
    rfl
  unfold decodeBy
  rw [hdecode, LookupType.check_of_nonBlank? hid]
  simp only [bind_assoc, pure_bind]
  rw [validateBy_reference hid]
  simp only [bind_assoc, pure_bind]

/-- Without an id, decoding has the same outcome in every world, whoever would follow the id. -/
theorem FieldType.decodeBy_idle
    (h : ∀ r, RowRef.ofInput input = .ok (some r) → Text.nonBlank? r.id = none) :
    ∃ outcome, ∀ (follow : LookupType → RowRef → Decoding τ Value) (w : World τ),
      ((FieldType.element (.lookup c)).decodeBy follow input).run w = (outcome, w) := by
  have hidle (outcome : Except TypeError Value)
      (hdecode : ∀ (follow : LookupType → RowRef → Decoding τ Value) (w : World τ),
        (c.decode follow input).run w = (outcome, w))
      (hnull : ∀ v, outcome = .ok v → v = .null) :
      ∃ outcome, ∀ (follow : LookupType → RowRef → Decoding τ Value) (w : World τ),
        ((FieldType.element (.lookup c)).decodeBy follow input).run w = (outcome, w) := by
    refine ⟨outcome, fun follow w => ?_⟩
    show (c.decode follow input >>= _).run w = _
    rw [run_bind, hdecode]
    cases outcome with
    | error e => rfl
    | ok v =>
      cases hnull v rfl
      rfl
  rcases hread : RowRef.ofInput input with e | _ | r
  · refine hidle (.error e) (fun follow w => ?_) nofun
    unfold LookupType.decode
    rw [hread]
    rfl
  · refine hidle (.ok .null) (fun follow w => ?_) (by rintro v ⟨⟩; rfl)
    unfold LookupType.decode
    rw [hread]
    rfl
  · refine hidle (.error (.violation .lookupIdRequired)) (fun follow w => ?_) nofun
    unfold LookupType.decode LookupType.check
    rw [hread]
    show (_ >>= _ : Decoding τ Value).run w = _
    rw [run_bind, run_outcome]
    dsimp only
    rw [h r hread]
    rfl

theorem FieldType.validateBy_idle {v : Value}
    (h : ∀ r, v = .lookup r → Text.nonBlank? r.id = none) :
    ∃ outcome, ∀ (follow : LookupType → RowRef → Decoding τ Value) (w : World τ),
      ((FieldType.element (.lookup c)).validateBy follow v).run w = (outcome, w) := by
  cases v with
  | null => exact ⟨.ok (), fun _ _ => rfl⟩
  | lookup r =>
    have hcheck (follow : LookupType → RowRef → Decoding τ Value) :
        c.check follow r = throw (.violation .lookupIdRequired) := by
      unfold LookupType.check
      rw [h r rfl]
    have hvalidate (follow : LookupType → RowRef → Decoding τ Value) :
        (FieldType.element (.lookup c)).validateBy follow (.lookup r) =
          if r.isEmpty then pure () else throw (.violation .lookupIdRequired) := by
      rw [← hcheck follow]
      rfl
    simp only [hvalidate]
    cases r.isEmpty with
    | true => exact ⟨.ok (), fun _ _ => rfl⟩
    | false => exact ⟨.error (.violation .lookupIdRequired), fun _ _ => rfl⟩
  | _ => exact ⟨_, fun _ _ => rfl⟩

end Follow

section Once

variable {τ α β : Type} [DictionarySource τ] {c : LookupType} {t : Target} {w : World τ}

theorem Target.steady_typedId (t : Target) (r : RowRef) : Steady (t.typedId r : Decoding τ Value) :=
  Steady.sequential.idBy (fun l _ => Steady.sequential.typedIdWithin Steady.resolve (Steady.throw _) _ l) r

theorem LookupType.typedId_eq (c : LookupType) (r : RowRef) :
    (c.typedId r : Decoding τ Value) = c.resolve >>= fun t => t.typedId r := rfl

/-- The second of two resolutions finds the target that the first has left. -/
theorem LookupType.run_resolve_twice {m : Target → Decoding τ α} (hm : ∀ t, Steady (m t))
    (k : Decoding τ β) :
    ((c.resolve >>= m) >>= fun _ => (c.resolve >>= m) >>= fun _ => k).run w =
      (c.resolve >>= fun t => m t >>= fun _ => m t >>= fun _ => k).run w := by
  rw [bind_assoc]
  rcases hresolve : (c.resolve : Decoding τ Target).run w with ⟨e | t, w₁⟩
  · rw [run_bind_of_error hresolve, run_bind_of_error hresolve]
  · rw [run_bind_of_ok hresolve, run_bind_of_ok hresolve]
    rcases hfirst : (m t).run w₁ with ⟨e | a, w₂⟩
    · rw [run_bind_of_error hfirst, run_bind_of_error hfirst]
    · have hknown : c.target? w₂ = some t :=
        target?_later (target?_of_resolve hresolve).2 (hm t w₁ a w₂ hfirst).1
      rw [run_bind_of_ok hfirst, run_bind_of_ok hfirst, bind_assoc,
        run_bind_of_ok (run_resolve_of_target hknown)]

namespace LookupCall

variable {call : LookupCall}

/-- A call that needs the target resolves it and goes on from there. -/
theorem run_on_of_needs (h : call.needsTarget = true) :
    (call.on c : Decoding τ LookupAnswer).run w =
      (c.resolve >>= fun t => call.withTarget c t).run w := by
  cases call with
  | resolve =>
    show (LookupAnswer.target <$> c.resolve).run w = _
    rw [map_eq_pure_bind]
    rfl
  | validateDescriptor =>
    show ((fun _ => LookupAnswer.valid) <$> (c.resolve >>= _)).run w = _
    rw [map_bind]
    rfl
  | typedId r =>
    show (LookupAnswer.value <$> c.typedId r).run w = _
    rw [LookupType.typedId_eq, map_bind]
    rfl
  | decode source =>
    unfold needsTarget at h
    dsimp only at h
    split at h
    · next r hread =>
      obtain ⟨id, hid⟩ := Option.isSome_iff_exists.mp h
      have hdecode (follow : LookupType → RowRef → Decoding τ Value) :
          LookupAnswer.value <$> (FieldType.element (.lookup c)).decodeBy follow source.input =
            follow c r >>= fun _ => follow c r >>= fun _ => pure (.value (.lookup r)) := by
        rw [FieldType.decodeBy_reference hread hid]
        simp only [map_bind, map_pure]
      have hlater : (fun t => LookupCall.withTarget (τ := τ) c t (.decode source)) = fun t =>
          t.typedId r >>= fun _ => t.typedId r >>= fun _ => pure (.value (.lookup r)) :=
        funext fun t => hdecode fun _ r => t.typedId r
      rw [hlater]
      refine (congrArg (·.run w) (hdecode LookupType.typedId)).trans ?_
      exact c.run_resolve_twice (fun t => t.steady_typedId r) _
    · cases h
  | validate v =>
    cases v with
    | lookup r =>
      obtain ⟨id, hid⟩ := Option.isSome_iff_exists.mp h
      have hvalidate (follow : LookupType → RowRef → Decoding τ Value) :
          (fun _ => LookupAnswer.valid) <$> (FieldType.element (.lookup c)).validateBy follow (.lookup r) =
            follow c r >>= fun _ => pure .valid := by
        rw [FieldType.validateBy_reference hid]
        simp only [map_bind, map_pure]
      have hlater : (fun t => LookupCall.withTarget (τ := τ) c t (.validate (.lookup r))) = fun t =>
          t.typedId r >>= fun _ => pure .valid :=
        funext fun t => hvalidate fun _ r => t.typedId r
      rw [hlater]
      refine (congrArg (·.run w) (hvalidate LookupType.typedId)).trans ?_
      rw [LookupType.typedId_eq, bind_assoc]
    | _ => cases h

/-- A call that does not need the target has the same outcome in every world. -/
theorem run_on_idle (c : LookupType) (h : call.needsTarget = false) :
    ∃ outcome, ∀ w : World τ, (call.on c : Decoding τ LookupAnswer).run w = (outcome, w) ∧
      ∀ t, (call.withTarget c t : Decoding τ LookupAnswer).run w = (outcome, w) := by
  cases call with
  | decode source =>
    have hidle : ∀ r, RowRef.ofInput source.input = .ok (some r) → Text.nonBlank? r.id = none := by
      intro r hread
      unfold needsTarget at h
      dsimp only at h
      rw [hread] at h
      exact Option.isSome_eq_false_iff.mp h |> Option.isNone_iff_eq_none.mp
    obtain ⟨outcome, hrun⟩ := FieldType.decodeBy_idle (τ := τ) (c := c) hidle
    refine ⟨outcome.map .value, fun w => ⟨?_, fun t => ?_⟩⟩
    · exact run_map_of_run _ (hrun LookupType.typedId w)
    · exact run_map_of_run _ (hrun (fun _ r => t.typedId r) w)
  | validate v =>
    have hidle : ∀ r, v = .lookup r → Text.nonBlank? r.id = none := by
      rintro r rfl
      exact Option.isSome_eq_false_iff.mp h |> Option.isNone_iff_eq_none.mp
    obtain ⟨outcome, hrun⟩ := FieldType.validateBy_idle (τ := τ) (c := c) hidle
    refine ⟨outcome.map fun _ => .valid, fun w => ⟨?_, fun t => ?_⟩⟩
    · exact run_map_of_run _ (hrun LookupType.typedId w)
    · exact run_map_of_run _ (hrun (fun _ r => t.typedId r) w)
  | _ => cases h

end LookupCall

end Once

/-! ### Before and after the first success -/

section Shared

variable {τ : Type} [DictionarySource τ] {l c : LookupType} {call : LookupCall} {t : Target}

theorem LookupType.SharesTarget.target?_eq (h : l.SharesTarget c) {σ : Type} (w : World σ) :
    c.target? w = l.target? w := by
  unfold target?
  rw [h.1, h.2]

/-- As long as there is no target, a call asks for it once, if it needs it and there is a path to ask
for. It ends with a failure, which leaves the targets as they are, or goes on from the success, which
is remembered. -/
structure LookupCall.AsksOnce (call : LookupCall) (c : LookupType) (w : World (Recorded τ)) :
    Prop where
  idle : call.needsTarget = false → ((call.on c).run w).2 = w
  pathless : call.needsTarget = true → c.path = "" →
    (call.on c).run w = (.error (.descriptor .lookup .lookupPath), w)
  question : (c.ask w).2.store.asked = w.store.asked ++ [c.question]
  failed : call.needsTarget = true → c.path ≠ "" → ∀ e, c.targetOfFound (c.ask w).1 = .error e →
    (call.on c).run w = (.error e, (c.ask w).2) ∧ (c.ask w).2.targets = w.targets
  found : call.needsTarget = true → c.path ≠ "" → ∀ t, c.targetOfFound (c.ask w).1 = .ok t →
    let w' := (c.ask w).2.remember c.cell t
    (call.on c).run w = (call.withTarget c t).run w' ∧ c.target? w' = some t

/-- Once there is a target, a call goes on from it. Nothing at all is asked for if the id type is no
reference, or if all that it leads to is known. -/
structure LookupCall.GoesOn (call : LookupCall) (c : LookupType) (t : Target)
    (w : World (Recorded τ)) : Prop where
  resolved : (c.resolve : Decoding (Recorded τ) Target).run w = (.ok t, w)
  same : (call.on c).run w = (call.withTarget c t).run w
  plain : t.idType.reference? = none → ((call.on c).run w).2 = w
  known : c.Known w (DictionarySource.depth τ + 1) → ((call.on c).run w).2 = w

theorem LookupCall.asksOnce {w : World (Recorded τ)} (htarget : c.target? w = none) :
    call.AsksOnce c w where
  idle h := by
    obtain ⟨outcome, hrun⟩ := run_on_idle (τ := Recorded τ) c h
    rw [(hrun w).1]
  pathless h hpath := by
    rw [run_on_of_needs h, run_bind_of_error (LookupType.run_resolve_of_no_path htarget hpath)]
  question := rfl
  failed h hpath e he := by
    have hresolve := LookupType.run_resolve_of_failed htarget hpath he
    exact ⟨by rw [run_on_of_needs h, run_bind_of_error hresolve]; rfl, rfl⟩
  found h hpath t ht := by
    have hresolve := LookupType.run_resolve_of_found htarget hpath ht
    exact ⟨by rw [run_on_of_needs h, run_bind_of_ok hresolve]; rfl,
      (LookupType.target?_of_resolve hresolve).2⟩

/-- What does not lead to a reference changes no world. -/
theorem LookupCall.withTarget_plain (hid : t.idType.reference? = none) (c : LookupType)
    (call : LookupCall) (w : World τ) :
    ((call.withTarget c t : Decoding τ LookupAnswer).run w).2 = w := by
  have hstill : Sequential (τ := τ) fun m => KeepsE (· = ·) m := KeepsE.sequential
  have htyped (r : RowRef) : KeepsE (· = ·) (t.typedId r : Decoding τ Value) :=
    hstill.idBy (fun l hl => by rw [hid] at hl; cases hl) r
  have hcall : KeepsE (· = ·) (call.withTarget c t : Decoding τ LookupAnswer) := by
    cases call with
    | resolve => exact KeepsE.pure _
    | validateDescriptor =>
      exact KeepsE.map _ (hstill.validateDescriptorBy fun l hl => by rw [hid] at hl; cases hl)
    | typedId r => exact (htyped r).map _
    | decode source => exact KeepsE.map _ ((hstill.within _).decodeBy (fun _ _ r => htyped r) source.input)
    | validate v => exact KeepsE.map _ ((hstill.within _).validateBy (fun _ _ r => htyped r) v)
  exact (hcall w).symm

theorem LookupCall.on_known {w : World τ} (h : c.Known w (DictionarySource.depth τ + 1)) (call : LookupCall) :
    ((call.on c : Decoding τ LookupAnswer).run w).2 = w := by
  have htype : (FieldType.element (.lookup c)).Known w (DictionarySource.depth τ) :=
    ⟨fun l hl => by cases hl; exact h, nofun⟩
  have hmap {α : Type} (f : α → LookupAnswer) {m : Decoding τ α} (hm : (m.run w).2 = w) :
      ((f <$> m).run w).2 = w := by
    have hrun : m.run w = ((m.run w).1, w) := Prod.ext rfl hm
    rw [run_map_of_run f hrun]
  cases call with
  | resolve =>
    obtain ⟨t, ht, -⟩ := h
    exact hmap _ (congrArg Prod.snd (LookupType.run_resolve_of_target ht))
  | validateDescriptor => exact hmap _ (congrArg Prod.snd htype.validateDescriptor)
  | typedId r => exact hmap _ (htype.typedId rfl r).world
  | decode source => exact hmap _ (htype.decode source).world
  | validate v => exact hmap _ (htype.validate v).world

theorem LookupCall.goesOn {w : World (Recorded τ)} (htarget : c.target? w = some t) :
    call.GoesOn c t w := by
  have hresolve : (c.resolve : Decoding (Recorded τ) Target).run w = (.ok t, w) :=
    LookupType.run_resolve_of_target htarget
  have hsame : (call.on c).run w = (call.withTarget c t).run w := by
    cases hneeds : call.needsTarget with
    | true => rw [run_on_of_needs hneeds, run_bind_of_ok hresolve]
    | false =>
      obtain ⟨outcome, hrun⟩ := run_on_idle (τ := Recorded τ) c hneeds
      rw [(hrun w).1, (hrun w).2 t]
  exact ⟨hresolve, hsame, fun hid => by rw [hsame, withTarget_plain hid],
    fun hknown => on_known hknown call⟩

/-! ### Runs -/

/-- A call of some reference type, or a change of the dictionaries, and with it of the answers. -/
inductive LookupEvent (τ : Type) where
  | call (c : LookupType) (call : LookupCall)
  | change (f : τ → τ)

def LookupEvent.step : LookupEvent τ →
    StateM (World (Recorded τ)) (Option (Except TypeError LookupAnswer))
  | .call c call => some <$> (call.on c).run
  | .change f => fun w => (none, { w with store := { w.store with store := f w.store.store } })

theorem LookupCall.on_keeps (c : LookupType) (call : LookupCall) :
    KeepsE World.Remembers (call.on c : Decoding τ LookupAnswer) := by
  have hresolve (l : LookupType) : KeepsE World.Remembers (l.resolve : Decoding τ Target) :=
    l.resolve_remembers
  have htyped (l : LookupType) (r : RowRef) :
      KeepsE World.Remembers (l.typedId r : Decoding τ Value) :=
    KeepsE.sequential.typedIdWithin hresolve (KeepsE.throw _) _ l r
  cases call with
  | resolve => exact (hresolve c).map _
  | validateDescriptor => exact KeepsE.map _ (FieldType.validateDescriptor_keeps hresolve _)
  | typedId r => exact (htyped c r).map _
  | decode source => exact KeepsE.map _ (FieldType.decode_keeps hresolve _ source)
  | validate v => exact KeepsE.map _ ((KeepsE.sequential.within _).validateBy (fun l _ => htyped l) v)

theorem LookupEvent.step_keeps (e : LookupEvent τ) : Keeps World.Remembers e.step := by
  cases e with
  | call c call => exact Keeps.map some (LookupCall.on_keeps (τ := Recorded τ) c call)
  | change f => exact fun w cell t h => h

/-- At any moment of a course of calls and changes: if the type has no target yet, each of its copies
asks for it once when it needs it; if it has one, then each of its copies has this target, at once and
ever after, and goes on from it. -/
theorem target_is_shared (l : LookupType) (before later : List (LookupEvent τ))
    (w₀ : World (Recorded τ)) :
    let w := after LookupEvent.step before w₀
    ∀ c, l.SharesTarget c → ∀ call : LookupCall,
      (l.target? w = none → call.AsksOnce c w) ∧
        ∀ t, l.target? w = some t → call.GoesOn c t (after LookupEvent.step later w) := by
  intro w c hshares call
  constructor
  · intro htarget
    exact LookupCall.asksOnce ((hshares.target?_eq w).trans htarget)
  · intro t htarget
    have hkept : w.Remembers (after LookupEvent.step later w) :=
      after_keeps LookupEvent.step_keeps later w
    exact LookupCall.goesOn ((hshares.target?_eq _).trans (LookupType.target?_later htarget hkept))

end Shared

namespace Orders

/-- A dictionary of orders by customer, as it is found. -/
def foundOrders : FoundDictionary := ⟨"orders", some ("customer", orders.idType)⟩

def foundCustomers : FoundDictionary := ⟨"customers", some ("id", customers.idType)⟩

def reference : LookupType := .free 0 0 "orders" .default

/-- Nothing is found at first, and something else later. -/
def course : List (LookupEvent FoundOnce) :=
  [.call reference .resolve, .change fun _ => ⟨[foundOrders, foundCustomers]⟩,
    .call reference .resolve]

def unknown : World (Recorded FoundOnce) where
  store := { store := ⟨[]⟩ }

/-- After a failure and a success, each with one question, the target stays. -/
theorem orders_stay_target :
    let w := after LookupEvent.step course unknown
    let changed := after LookupEvent.step [.change fun _ => ⟨[foundCustomers]⟩] w
    w.store.asked = [reference.question, reference.question] ∧
      (reference.resolve : Decoding (Recorded FoundOnce) Target).run changed = (.ok orders, changed) := by
  have hknown : reference.target? (after LookupEvent.step course unknown) = some orders := by rfl
  have hshared := target_is_shared reference course [.change fun _ => ⟨[foundCustomers]⟩] unknown
    reference ⟨rfl, rfl⟩ .resolve
  exact ⟨by rfl, (hshared.2 orders hknown).resolved⟩

/-- Both are known, after three questions. -/
def bothKnown : World (Recorded FoundOnce) where
  targets := [(.free 1, customers), (.free 0, orders)]
  store :=
    ⟨⟨[]⟩, [reference.question, reference.question, ⟨.default, 0, "customers"⟩]⟩

/-- The customers are asked for when an id is decoded, although the orders have been resolved. -/
theorem customers_asked_for_later :
    ¬(∀ (l : LookupType) (w : World (Recorded FoundOnce)) (t : Target), l.target? w = some t →
        ∀ call : LookupCall, ((call.on l).run w).2.store.asked = w.store.asked) ∧
      ((LookupCall.typedId { id := "7" }).on reference).run (after LookupEvent.step course unknown) =
        (.ok (.value (.lookup { id := "7" })), bothKnown) := by
  have hasks : ((LookupCall.typedId { id := "7" }).on reference).run
      (after LookupEvent.step course unknown) =
        (.ok (.value (.lookup { id := "7" })), bothKnown) := by rfl
  refine ⟨fun h => ?_, hasks⟩
  have hsame := h reference (after LookupEvent.step course unknown) orders rfl
    (.typedId { id := "7" })
  rw [hasks] at hsame
  exact absurd hsame (by decide)

end Orders

end TenantSchema
