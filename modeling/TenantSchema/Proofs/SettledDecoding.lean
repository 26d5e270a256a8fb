import TenantSchema.Proofs.DecodeSteps

/-!
# Decodings that settle

A decoding that succeeds remembers the target of each reference that it follows. From then on it
gives the same value again and changes nothing, in every world that still remembers these targets,
whatever has become of the dictionaries by then.
-/

namespace TenantSchema

/-! ### Worlds that remember -/

section Worlds

variable {τ : Type}

/-- Every target that the one world remembers, the other remembers too. -/
def World.Remembers (w w' : World τ) : Prop :=
  ∀ cell t, w.target? cell = some t → w'.target? cell = some t

instance : IsPreorder (World τ) World.Remembers where
  refl _ _ _ h := h
  trans _ _ _ h h' cell t ht := h' cell t (h cell t ht)

theorem World.remembers_remember (w : World τ) (cell : Cell) (t : Target) :
    w.Remembers (w.remember cell t) := by
  intro cell' t' h
  unfold remember
  cases hc : w.target? cell with
  | some _ => exact h
  | none =>
    show ((cell, t) :: w.targets).lookup cell' = some t'
    have hne : (cell' == cell) = false := by
      rw [beq_eq_false_iff_ne]
      rintro rfl
      rw [hc] at h
      cases h
    rw [List.lookup_cons, hne]
    exact h

theorem World.target?_remember {w : World τ} {cell : Cell} (t : Target)
    (h : w.target? cell = none) : (w.remember cell t).target? cell = some t := by
  unfold remember
  rw [h]
  exact List.lookup_cons_self

/-- In this world and every later one, the decoding gives the value and changes nothing. -/
def Settled {α : Type} (w : World τ) (m : Decoding τ α) (a : α) : Prop :=
  ∀ w', w.Remembers w' → m.run w' = (.ok a, w')

/-- What the decoding gives once is settled from then on. -/
def Steady {α : Type} (m : Decoding τ α) : Prop :=
  ∀ w a w', m.run w = (.ok a, w') → w.Remembers w' ∧ Settled w' m a

variable {α β : Type} {w : World τ}

theorem Settled.later {w' : World τ} {m : Decoding τ α} {a : α} (h : Settled w m a)
    (hw : w.Remembers w') : Settled w' m a :=
  fun w'' hw'' => h w'' (IsTrans.trans (r := World.Remembers) _ _ _ hw hw'')

theorem Settled.pure (w : World τ) (a : α) : Settled w (Pure.pure a : Decoding τ α) a :=
  fun _ _ => rfl

theorem Settled.bind {m : Decoding τ α} {k : α → Decoding τ β} {a : α} {b : β}
    (hm : Settled w m a) (hk : Settled w (k a) b) : Settled w (m >>= k) b := by
  intro w' hw
  rw [run_bind, hm w' hw]
  exact hk w' hw

theorem Settled.ofExcept {a : Except TypeError α} {v : α} (h : a = .ok v) :
    Settled w (liftExcept a : Decoding τ α) v := by
  subst h
  exact Settled.pure w v

theorem Settled.forM {f : α → Decoding τ Unit} {l : List α} (h : ∀ a ∈ l, Settled w (f a) ()) :
    Settled w (l.forM f) () := by
  induction l with
  | nil => exact Settled.pure w ()
  | cons a l ih =>
    exact Settled.bind (h a List.mem_cons_self) (ih fun b hb => h b (List.mem_cons_of_mem a hb))

/-- Values that are each given again are given again as a list. -/
theorem Settled.mapM {f : α → Decoding τ β} {g : β → α} {l : List β}
    (h : ∀ b ∈ l, Settled w (f (g b)) b) : Settled w ((l.map g).mapM f) l := by
  induction l with
  | nil => exact Settled.pure w []
  | cons b l ih =>
    rw [List.map_cons, List.mapM_cons]
    have hrest := ih fun c hc => h c (List.mem_cons_of_mem b hc)
    exact Settled.bind (h b List.mem_cons_self) (Settled.bind hrest (Settled.pure w (b :: l)))

/-- A sequence that succeeds has succeeded at each step. -/
theorem run_bind_ok {w' : World τ} {m : Decoding τ α} {k : α → Decoding τ β} {b : β}
    (h : (m >>= k).run w = (.ok b, w')) :
    ∃ a w₁, m.run w = (.ok a, w₁) ∧ (k a).run w₁ = (.ok b, w') := by
  rw [run_bind] at h
  rcases hm : m.run w with ⟨a | a, w₁⟩
  · rw [hm] at h
    cases h
  · rw [hm] at h
    exact ⟨a, w₁, rfl, h⟩

theorem Steady.pure (a : α) : Steady (Pure.pure a : Decoding τ α) := by
  intro w b w' h
  cases h
  exact ⟨Std.Refl.refl (r := World.Remembers) w, Settled.pure w a⟩

theorem Steady.throw (e : TypeError) : Steady (throw e : Decoding τ α) := by
  intro w a w' h
  cases h

theorem Steady.bind {m : Decoding τ α} {k : α → Decoding τ β} (hm : Steady m)
    (hk : ∀ a, Steady (k a)) : Steady (m >>= k) := by
  intro w b w' h
  obtain ⟨a, w₁, ha, hb⟩ := run_bind_ok h
  obtain ⟨hw₁, hsettled⟩ := hm w a w₁ ha
  obtain ⟨hw', hrest⟩ := hk a w₁ b w' hb
  exact ⟨IsTrans.trans (r := World.Remembers) _ _ _ hw₁ hw', (hsettled.later hw').bind hrest⟩

theorem Steady.adapt (f : TypeError → TypeError) {m : Decoding τ α} (hm : Steady m) :
    Steady (ExceptT.adapt f m) := by
  have hrun (w : World τ) : (ExceptT.adapt f m).run w = ((m.run w).1.mapError f, (m.run w).2) := rfl
  intro w a w' h
  rw [hrun] at h
  rcases hm' : m.run w with ⟨e | a, w₁⟩
  · rw [hm'] at h
    cases h
  · rw [hm'] at h
    cases h
    obtain ⟨hw, hsettled⟩ := hm w a w₁ hm'
    refine ⟨hw, fun w'' hw'' => ?_⟩
    rw [hrun, hsettled w'' hw'']
    rfl

theorem Steady.sequential : Sequential (τ := τ) fun m => Steady m where
  pure := Steady.pure
  throw e _ := Steady.throw e
  bind := Steady.bind
  adapt id _ hm := Steady.adapt (TypeError.lookupId id) hm

section References

variable {l : LookupType} {t : Target} {w' : World τ}

theorem LookupType.target?_eq_none_iff :
    l.target? w = none ↔ l.own = none ∧ w.target? l.cell = none := by
  unfold target?
  cases l.own with
  | some own => simp
  | none => simp

theorem LookupType.target?_later (h : l.target? w = some t) (hw : w.Remembers w') :
    l.target? w' = some t := by
  unfold target? at h ⊢
  cases hown : l.own with
  | some own =>
    rw [hown] at h
    exact h
  | none =>
    rw [hown] at h
    exact hw l.cell t h

variable [DictionarySource τ]

theorem LookupType.run_resolve_of_target (h : l.target? w = some t) :
    (l.resolve : Decoding τ Target).run w = (.ok t, w) := by
  unfold resolve
  rw [run_get_bind, h]
  rfl

/-- A target that is not known is asked for once, unless there is no path, and remembered if it is
found. -/
theorem LookupType.run_resolve (htarget : l.target? w = none) (hpath : l.path ≠ "") :
    (l.resolve : Decoding τ Target).run w =
      let found := World.onStore (DictionarySource.find l.via l.domain l.path) w
      match l.targetOfFound found.1 with
      | .error e => (.error e, found.2)
      | .ok t => (.ok t, found.2.remember l.cell t) := by
  have hnonempty : ¬ l.path.isEmpty = true := fun h => hpath (String.isEmpty_iff.mp h)
  unfold resolve
  rw [run_get_bind, htarget]
  dsimp only
  rw [if_neg hnonempty, run_lift_bind]
  cases l.targetOfFound (World.onStore (DictionarySource.find l.via l.domain l.path) w).1 <;> rfl

theorem LookupType.run_resolve_of_no_path (htarget : l.target? w = none) (hpath : l.path = "") :
    (l.resolve : Decoding τ Target).run w = (.error (.descriptor .lookup .lookupPath), w) := by
  unfold resolve
  rw [run_get_bind, htarget]
  dsimp only
  rw [if_pos (String.isEmpty_iff.mpr hpath)]
  rfl

theorem LookupType.run_resolve_of_failed (htarget : l.target? w = none) (hpath : l.path ≠ "")
    {e : TypeError} (he : l.targetOfFound
      (World.onStore (DictionarySource.find l.via l.domain l.path) w).1 = .error e) :
    (l.resolve : Decoding τ Target).run w =
      (.error e, (World.onStore (DictionarySource.find l.via l.domain l.path) w).2) := by
  rw [run_resolve htarget hpath]
  dsimp only
  rw [he]

theorem LookupType.run_resolve_of_found (htarget : l.target? w = none) (hpath : l.path ≠ "")
    (ht : l.targetOfFound
      (World.onStore (DictionarySource.find l.via l.domain l.path) w).1 = .ok t) :
    (l.resolve : Decoding τ Target).run w =
      (.ok t, (World.onStore (DictionarySource.find l.via l.domain l.path) w).2.remember
        l.cell t) := by
  rw [run_resolve htarget hpath]
  dsimp only
  rw [ht]

/-- The target that a lookup brings is that of the dictionary, and is remembered. -/
theorem LookupType.run_resolve_of_none (htarget : l.target? w = none)
    (h : (l.resolve : Decoding τ Target).run w = (.ok t, w')) :
    let found := World.onStore (DictionarySource.find l.via l.domain l.path) w
    l.targetOfFound found.1 = .ok t ∧ w' = found.2.remember l.cell t := by
  by_cases hpath : l.path = ""
  · rw [run_resolve_of_no_path htarget hpath] at h
    cases h
  · rw [run_resolve htarget hpath] at h
    dsimp only at h
    split at h
    · cases h
    · next hfound =>
      cases h
      exact ⟨hfound, rfl⟩

/-- A reference that has been resolved is known from then on, with all that was known before. -/
theorem LookupType.target?_of_resolve (h : (l.resolve : Decoding τ Target).run w = (.ok t, w')) :
    w.Remembers w' ∧ l.target? w' = some t := by
  cases htarget : l.target? w with
  | some t' =>
    rw [run_resolve_of_target htarget] at h
    cases h
    exact ⟨Std.Refl.refl (r := World.Remembers) w, htarget⟩
  | none =>
    obtain ⟨hown, hcell⟩ := target?_eq_none_iff.mp htarget
    rw [(run_resolve_of_none htarget h).2]
    -- asking for a dictionary leaves the targets alone
    have hkept : w.Remembers (World.onStore (DictionarySource.find l.via l.domain l.path) w).2 :=
      fun _ _ h => h
    refine ⟨IsTrans.trans (r := World.Remembers) _ _ _ hkept
      (World.remembers_remember _ l.cell t), ?_⟩
    unfold target?
    rw [hown]
    exact World.target?_remember t hcell

/-- A reference that cannot be resolved has no target afterwards either. What is wrong is no violation,
and no breakdown. -/
theorem LookupType.error_of_resolve {e : TypeError}
    (h : (l.resolve : Decoding τ Target).run w = (.error e, w')) :
    l.target? w' = none ∧ e.code = none ∧ e.breakdown? = none := by
  cases htarget : l.target? w with
  | some t =>
    rw [run_resolve_of_target htarget] at h
    cases h
  | none =>
    by_cases hpath : l.path = ""
    · rw [run_resolve_of_no_path htarget hpath] at h
      cases h
      exact ⟨htarget, rfl, rfl⟩
    · rw [run_resolve htarget hpath] at h
      dsimp only at h
      split at h
      · next e' he =>
        cases h
        -- asking for a dictionary leaves the targets alone
        refine ⟨htarget, ?_⟩
        unfold targetOfFound at he
        split at he <;> cases he <;> exact ⟨rfl, rfl⟩
      · cases h

theorem LookupType.resolve_remembers (l : LookupType) :
    KeepsE World.Remembers (l.resolve : Decoding τ Target) := by
  have hfind (via : Via) (domain : Int) (path : String) : Keeps World.Remembers
      (World.onStore (DictionarySource.find (τ := τ) via domain path)) := fun _ _ _ h => h
  exact l.resolve_keeps hfind fun cell t w => w.remembers_remember cell t

theorem Steady.resolve (l : LookupType) : Steady (l.resolve : Decoding τ Target) := by
  intro w t w' h
  obtain ⟨hkept, htarget⟩ := LookupType.target?_of_resolve h
  exact ⟨hkept, fun w'' hw =>
    LookupType.run_resolve_of_target (LookupType.target?_later htarget hw)⟩

end References

/-- Each item of a list that was decoded was decoded on the way. -/
theorem exists_run_of_mapM {f : α → Decoding τ β} (hf : ∀ a, Steady (f a)) {l : List α}
    {bs : List β} {w' : World τ} (h : (l.mapM f).run w = (.ok bs, w')) :
    ∀ b ∈ bs, ∃ a w₁ w₂, (f a).run w₁ = (.ok b, w₂) ∧ w₂.Remembers w' := by
  induction l generalizing w bs with
  | nil =>
    cases h
    simp
  | cons a l ih =>
    rw [List.mapM_cons] at h
    obtain ⟨b, w₁, hb, h⟩ := run_bind_ok h
    obtain ⟨bs', w₂, hbs, h⟩ := run_bind_ok h
    cases h
    intro c hc
    rcases List.mem_cons.mp hc with rfl | hc
    · exact ⟨a, w, w₁, hb, ((Steady.sequential.within []).mapM hf l w₁ bs' w' hbs).1⟩
    · exact ih hbs c hc

/-- A check of all items that succeeds is settled for each of them. -/
theorem settled_of_forM {f : α → Decoding τ Unit} (hf : ∀ a, Steady (f a)) {l : List α}
    {w' : World τ} (h : (l.forM f).run w = (.ok (), w')) : ∀ a ∈ l, Settled w' (f a) () := by
  induction l generalizing w with
  | nil => simp
  | cons a l ih =>
    obtain ⟨_, w₁, ha, hrest⟩ := run_bind_ok h
    intro b hb
    rcases List.mem_cons.mp hb with rfl | hb
    · exact (hf b w () w₁ ha).2.later ((Steady.sequential.within []).forM hf l w₁ () w' hrest).1
    · exact ih hrest b hb

end Worlds

end TenantSchema
