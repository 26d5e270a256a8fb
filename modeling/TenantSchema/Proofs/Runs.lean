import Mathlib.Order.Defs.Unbundled

/-!
# Programs over a state

What a program keeps is a relation between the state before it and the state after it. A relation
that can be chained is kept by a program when its steps keep it. The same for programs that may
fail, and for runs of calls.
-/

namespace TenantSchema

variable {σ α β ε : Type} {R : σ → σ → Prop}

theorem bind_apply (m : StateM σ α) (k : α → StateM σ β) (s : σ) :
    (m >>= k) s = k (m s).1 (m s).2 := rfl

theorem map_apply (f : α → β) (m : StateM σ α) (s : σ) : (f <$> m) s = (f (m s).1, (m s).2) := rfl

theorem get_bind_apply (k : σ → StateM σ β) (s : σ) : ((get : StateM σ σ) >>= k) s = k s s := rfl

/-- Wherever `m` starts, it ends in a related state. -/
def Keeps (R : σ → σ → Prop) (m : StateM σ α) : Prop := ∀ s, R s (m s).2

theorem Keeps.mono {R' : σ → σ → Prop} {m : StateM σ α} (hm : Keeps R m)
    (h : ∀ s s', R s s' → R' s s') : Keeps R' m :=
  fun s => h _ _ (hm s)

theorem Keeps.modify {f : σ → σ} (h : ∀ s, R s (f s)) : Keeps R (modify f : StateM σ PUnit) := h

theorem Keeps.map {m : StateM σ α} (f : α → β) (hm : Keeps R m) : Keeps R (f <$> m) := hm

theorem Keeps.discard {m : StateM σ α} (hm : Keeps R m) : Keeps R (discard m) := hm

section Keeps

variable [IsPreorder σ R]

theorem Keeps.pure (a : α) : Keeps R (Pure.pure a : StateM σ α) := fun s => Std.Refl.refl s

theorem Keeps.bind {m : StateM σ α} {k : α → StateM σ β} (hm : Keeps R m)
    (hk : ∀ a, Keeps R (k a)) : Keeps R (m >>= k) :=
  fun s => IsTrans.trans _ _ _ (hm s) (hk (m s).1 (m s).2)

theorem Keeps.get : Keeps R (get : StateM σ σ) := fun s => Std.Refl.refl s

end Keeps

/-! ### Properties of states -/

/-- What holds before holds after. -/
def Carries (P : σ → Prop) (s s' : σ) : Prop := P s → P s'

instance (P : σ → Prop) : IsPreorder σ (Carries P) where
  refl _ h := h
  trans _ _ _ h h' hs := h' (h hs)

/-- From a state with `P`, `m` ends in such a state and answers with `Q`. -/
def Yields (P : σ → Prop) (m : StateM σ α) (Q : α → Prop) : Prop := ∀ s, P s → P (m s).2 ∧ Q (m s).1

section Yields

variable {P : σ → Prop} {Q : α → Prop} {Q' : β → Prop}

theorem Yields.of_keeps {m : StateM σ α} (hm : Keeps (Carries P) m) : Yields P m fun _ => True :=
  fun s hs => ⟨hm s hs, trivial⟩

theorem Yields.pure {a : α} (h : Q a) : Yields P (Pure.pure a) Q := fun _ hs => ⟨hs, h⟩

theorem Yields.bind {m : StateM σ α} {k : α → StateM σ β} (hm : Yields P m Q)
    (hk : ∀ a, Q a → Yields P (k a) Q') : Yields P (m >>= k) Q' := by
  intro s hs
  obtain ⟨hp, hq⟩ := hm s hs
  exact hk (m s).1 hq (m s).2 hp

theorem Yields.bind_keeps {m : StateM σ α} {k : α → StateM σ β} (hm : Keeps (Carries P) m)
    (hk : ∀ a, Yields P (k a) Q') : Yields P (m >>= k) Q' :=
  (Yields.of_keeps hm).bind fun a _ => hk a

theorem Yields.mono {m : StateM σ α} {Q' : α → Prop} (hm : Yields P m Q)
    (h : ∀ a, Q a → Q' a) : Yields P m Q' :=
  fun s hs => ⟨(hm s hs).1, h _ (hm s hs).2⟩

end Yields

/-! ### Programs that may fail -/

/-- Whether it fails or not, `m` ends in a related state. -/
def KeepsE (R : σ → σ → Prop) (m : ExceptT ε (StateM σ) α) : Prop := Keeps R m.run

theorem KeepsE.lift {m : StateM σ α} (hm : Keeps R m) :
    KeepsE R (ExceptT.lift m : ExceptT ε (StateM σ) α) :=
  Keeps.map Except.ok hm

theorem KeepsE.modify {f : σ → σ} (h : ∀ s, R s (f s)) :
    KeepsE R (modify f : ExceptT ε (StateM σ) PUnit) :=
  KeepsE.lift (Keeps.modify h)

theorem KeepsE.adapt {ε' : Type} {m : ExceptT ε (StateM σ) α} (f : ε → ε') (hm : KeepsE R m) :
    KeepsE R (ExceptT.adapt f m) :=
  Keeps.map _ hm

section KeepsE

variable [IsPreorder σ R]

theorem KeepsE.pure (a : α) : KeepsE R (Pure.pure a : ExceptT ε (StateM σ) α) :=
  Keeps.pure (Except.ok a)

theorem KeepsE.throw (e : ε) : KeepsE R (throw e : ExceptT ε (StateM σ) α) :=
  Keeps.pure (Except.error e)

/-- An outcome that is already there. -/
theorem KeepsE.outcome (a : Except ε α) : KeepsE R (liftM a : ExceptT ε (StateM σ) α) :=
  Keeps.pure a

theorem KeepsE.bind {m : ExceptT ε (StateM σ) α} {k : α → ExceptT ε (StateM σ) β}
    (hm : KeepsE R m) (hk : ∀ a, KeepsE R (k a)) : KeepsE R (m >>= k) := by
  refine Keeps.bind (k := ExceptT.bindCont k) hm fun r => ?_
  cases r with
  | ok a => exact hk a
  | error e => exact Keeps.pure _

theorem KeepsE.map (f : α → β) {m : ExceptT ε (StateM σ) α} (hm : KeepsE R m) :
    KeepsE R (f <$> m) := by
  rw [map_eq_pure_bind]
  exact hm.bind fun a => KeepsE.pure (f a)

theorem KeepsE.get : KeepsE R (get : ExceptT ε (StateM σ) σ) := KeepsE.lift Keeps.get

theorem KeepsE.discard {m : ExceptT ε (StateM σ) α} (hm : KeepsE R m) : KeepsE R (discard m) :=
  KeepsE.bind hm fun _ => KeepsE.pure _

theorem KeepsE.mapM {f : α → ExceptT ε (StateM σ) β} (h : ∀ a, KeepsE R (f a)) :
    ∀ l : List α, KeepsE R (l.mapM f)
  | [] => KeepsE.pure _
  | a :: l => by
    rw [List.mapM_cons]
    exact KeepsE.bind (h a) fun _ => KeepsE.bind (KeepsE.mapM h l) fun _ => KeepsE.pure _

theorem KeepsE.forM {f : α → ExceptT ε (StateM σ) PUnit} (h : ∀ a, KeepsE R (f a)) :
    ∀ l : List α, KeepsE R (l.forM f)
  | [] => KeepsE.pure _
  | a :: l => KeepsE.bind (h a) fun _ => KeepsE.forM h l

end KeepsE

theorem run_lift_bind (m : StateM σ α) (k : α → ExceptT ε (StateM σ) β) (s : σ) :
    (ExceptT.lift m >>= k).run s = (k (m s).1).run (m s).2 := rfl

theorem run_get_bind (k : σ → ExceptT ε (StateM σ) β) (s : σ) :
    ((get : ExceptT ε (StateM σ) σ) >>= k).run s = (k s).run s := rfl

theorem run_bind (m : ExceptT ε (StateM σ) α) (k : α → ExceptT ε (StateM σ) β) (s : σ) :
    (m >>= k).run s =
      match (m.run s).1 with
      | .ok a => (k a).run (m.run s).2
      | .error e => (.error e, (m.run s).2) := by
  show (ExceptT.bindCont k (m.run s).1) (m.run s).2 = _
  cases (m.run s).1 <;> rfl

theorem run_map_of_run (f : α → β) {m : ExceptT ε (StateM σ) α} {a : Except ε α} {s s' : σ}
    (h : m.run s = (a, s')) : (f <$> m).run s = (a.map f, s') := by
  rw [map_eq_pure_bind, run_bind, h]
  cases a <;> rfl

theorem run_bind_of_ok {m : ExceptT ε (StateM σ) α} {k : α → ExceptT ε (StateM σ) β} {a : α}
    {s s' : σ} (h : m.run s = (.ok a, s')) : (m >>= k).run s = (k a).run s' := by
  rw [run_bind, h]

theorem run_bind_of_error {m : ExceptT ε (StateM σ) α} {k : α → ExceptT ε (StateM σ) β} {e : ε}
    {s s' : σ} (h : m.run s = (.error e, s')) : (m >>= k).run s = (.error e, s') := by
  rw [run_bind, h]

/-! ### Runs -/

section Runs

variable {ι ω τ : Type}

/-- The answers to calls made one after another, and the state they leave behind. -/
def answers (step : ι → StateM σ ω) : List ι → StateM σ (List ω)
  | [] => fun s => ([], s)
  | call :: rest => fun s =>
    let first := step call s
    let more := answers step rest first.2
    (first.1 :: more.1, more.2)

/-- The state after some calls. -/
def after (step : ι → StateM σ ω) (calls : List ι) (s : σ) : σ := (answers step calls s).2

@[simp] theorem after_nil (step : ι → StateM σ ω) (s : σ) : after step [] s = s := rfl

@[simp] theorem after_cons (step : ι → StateM σ ω) (call : ι) (rest : List ι) (s : σ) :
    after step (call :: rest) s = after step rest (step call s).2 := rfl

theorem after_append (step : ι → StateM σ ω) (calls more : List ι) (s : σ) :
    after step (calls ++ more) s = after step more (after step calls s) := by
  induction calls generalizing s with
  | nil => rfl
  | cons call rest ih => exact ih (step call s).2

/-- What every step keeps holds after a run. -/
theorem after_invariant {P : σ → Prop} {step : ι → StateM σ ω}
    (h : ∀ call s, P s → P (step call s).2) (calls : List ι) {s : σ} (hs : P s) :
    P (after step calls s) := by
  induction calls generalizing s with
  | nil => exact hs
  | cons call rest ih => exact ih (h call s hs)

theorem after_keeps [IsPreorder σ R] {step : ι → StateM σ ω} (h : ∀ call, Keeps R (step call))
    (calls : List ι) (s : σ) : R s (after step calls s) :=
  after_invariant (P := R s) (fun call s' hs => IsTrans.trans _ _ _ hs (h call s')) calls
    (Std.Refl.refl s)

/-- Steps that answer alike on states that correspond make runs that answer alike. -/
theorem answers_simulation {P : σ → Prop} {view : σ → τ} {step : ι → StateM σ ω}
    {step' : ι → StateM τ ω}
    (h : ∀ call s, P s → P (step call s).2 ∧
      step' call (view s) = ((step call s).1, view (step call s).2))
    (calls : List ι) {s : σ} (hs : P s) :
    answers step' calls (view s) = ((answers step calls s).1, view (answers step calls s).2) := by
  induction calls generalizing s with
  | nil => rfl
  | cons call rest ih =>
    obtain ⟨hp, hc⟩ := h call s hs
    simp only [answers, hc, ih hp]

end Runs

end TenantSchema
