import TenantSchema.Proofs.RegistryEvents

/-!
# Runs of registries

A run is any interleaving of calls to registries: between a question to a resolver and its answer
everything may happen, and the answer may be anything. The calls themselves are runs, however deep
the resolvers and the datasets call back.
-/

namespace TenantSchema

/-- What is asked of a registry, with the outcome of what changes its caches. -/
inductive Deed where
  | sought (kind : DatasetKind) (domain : Int) (path : String)
  | registered (outcome : Except RegistryError Unit)
  | dropped (any : Bool)

namespace Deed

/-- A search that reaches the caches. -/
def seeks : Deed → Bool
  | .sought kind domain path => Store.Seeks kind domain path
  | _ => false

def registers : Deed → Bool
  | .registered (.ok _) => true
  | _ => false

/-- A registration refused because keys are reserved. -/
def conflicts : Deed → Bool
  | .registered (.error (.cache (.keysReserved _))) => true
  | _ => false

def drops : Deed → Bool
  | .dropped any => any
  | _ => false

end Deed

namespace Store

variable {σ : Type} {w : Watch}

/-- A store, and the questions on which resolvers are at work. -/
structure Moment (σ : Type) where
  store : Store σ
  asked : List Question

/-- The questions that the registry has open. -/
def Moment.pending (w : Watch) (m : Moment σ) : Nat := m.asked.countP fun q => w.On q.registry

/-- A step of a run, with what it does to the registry that is watched. -/
inductive Step (w : Watch) : Moment σ → List Deed → Moment σ → Prop
  /-- Anything that touches neither the counters nor the listener. -/
  | elsewhere {s s' : Store σ} {asked : List Question} (h : Emits w [] s s') :
    Step w ⟨s, asked⟩ [] ⟨s', asked⟩
  | registers {s : Store σ} {asked : List Question} {r : Registry} (hr : w.Fits r)
      (d : Descriptor) :
    Step w ⟨s, asked⟩ (w.echo r [.registered (register r d s).1]) ⟨(register r d s).2, asked⟩
  | unregisters {s : Store σ} {asked : List Question} {r : Registry} (hr : w.Fits r)
      (d : Descriptor) :
    Step w ⟨s, asked⟩ (w.echo r [.dropped (unregister r d s).1]) ⟨(unregister r d s).2, asked⟩
  | invalidates {s : Store σ} {asked : List Question} {r : Registry} (hr : w.Fits r)
      (domain : Int) (key : String) :
    Step w ⟨s, asked⟩ (w.echo r [.dropped (invalidate r domain key s).1])
      ⟨(invalidate r domain key s).2, asked⟩
  | seeks {s : Store σ} {asked : List Question} {r : Registry} (hr : w.Fits r)
      (kind : DatasetKind) (domain : Int) (path : String) :
    Step w ⟨s, asked⟩ (w.echo r [.sought kind domain path])
      ⟨(seek r kind domain path s).2, (seek r kind domain path s).1.getRight?.toList ++ asked⟩
  /-- A resolver answers one of the open questions, whichever and however it likes. -/
  | hears {s : Store σ} {others more : List Question} {q : Question} (hq : w.Fits q.registry)
      (answer : Except Error (Option Descriptor)) :
    Step w ⟨s, others ++ q :: more⟩ [] ⟨(q.hear answer s).2, others ++ more⟩

/-- A run, with all that it does to the registry that is watched. -/
inductive Run (w : Watch) : Moment σ → List Deed → Moment σ → Prop
  | rest (m : Moment σ) : Run w m [] m
  | step {m m' m'' : Moment σ} {deeds done : List Deed} (before : Run w m deeds m')
      (last : Step w m' done m'') : Run w m (deeds ++ done) m''

/-! ### Calls are runs -/

theorem Run.one {m m' : Moment σ} {done : List Deed} (h : Step w m done m') : Run w m done m' :=
  .step (.rest m) h

theorem Run.trans {m m' m'' : Moment σ} {deeds done : List Deed} (h : Run w m deeds m')
    (h' : Run w m' done m'') : Run w m (deeds ++ done) m'' := by
  induction h' with
  | rest => simpa using h
  | step _ last ih => exact List.append_assoc .. ▸ ih.step last

/-- A run that does no more than it has to. -/
theorem Run.only {m m' : Moment σ} {deeds : List Deed} (h : Run w m deeds m') :
    ∃ more, Run w m (deeds ++ more) m' :=
  ⟨[], (List.append_nil deeds).symm ▸ h⟩

/-- Where nothing is told nothing is done. -/
theorem Run.quiet {s s' : Store σ} (h : Emits w [] s s') (r : Registry) (asked : List Question) :
    Run w ⟨s, asked⟩ (w.echo r []) ⟨s', asked⟩ := by
  rw [Watch.echo_nil]
  exact .one (.elsewhere h)

/-- A run leads from one state to the other, whatever questions are open all the while. -/
def Reaches (w : Watch) (s s' : Store σ) : Prop :=
  ∀ asked, ∃ deeds, Run w ⟨s, asked⟩ deeds ⟨s', asked⟩

instance : IsPreorder (Store σ) (Reaches w) where
  refl s asked := ⟨[], .rest _⟩
  trans s s' s'' h h' asked := by
    obtain ⟨deeds, hfirst⟩ := h asked
    obtain ⟨done, hsecond⟩ := h' asked
    exact ⟨_, hfirst.trans hsecond⟩

theorem Emits.reaches {s s' : Store σ} (h : Emits w [] s s') : Reaches w s s' :=
  fun _ => ⟨_, .one (.elsewhere h)⟩

theorem reaches_register {r : Registry} (hr : w.Fits r) (d : Descriptor) :
    Keeps (Reaches w) (register (σ := σ) r d) :=
  fun _ _ => ⟨_, .one (.registers hr d)⟩

/-- Hearing the answer closes the question, and what is registered then is a step of its own. -/
theorem conclude_run {q : Question} (hq : w.Fits q.registry)
    (answer : Except Error (Option Descriptor)) (s : Store σ) (asked : List Question) :
    ∃ deeds, Run w ⟨s, q :: asked⟩ deeds ⟨(q.conclude answer s).2, asked⟩ := by
  have hstep : Step w ⟨s, [] ++ q :: asked⟩ [] ⟨(q.hear answer s).2, [] ++ asked⟩ :=
    .hears hq answer
  have hheard : Run w ⟨s, q :: asked⟩ [] ⟨(q.hear answer s).2, asked⟩ := .one hstep
  rcases answer with e | _ | d
  · exact ⟨_, hheard⟩
  · exact ⟨_, hheard⟩
  · cases hd : q.admits d with
    | false =>
      rw [Question.hear_refused hd] at hheard
      rw [Question.conclude_refused hd]
      exact ⟨_, hheard⟩
    | true =>
      rw [Question.hear_admitted hd] at hheard
      rw [Question.conclude_admitted hd]
      dsimp only at hheard ⊢
      split
      · obtain ⟨deeds, hregister⟩ := reaches_register hq d s asked
        exact ⟨_, hheard.trans hregister⟩
      · exact ⟨_, hheard⟩

theorem reaches_onOutside {α : Type} (step : StateM σ α) :
    Keeps (Reaches w) (onOutside step) := by
  intro s
  have hquiet : Emits w [] s (onOutside step s).2 := .quiet rfl rfl
  exact hquiet.reaches

theorem reaches_onFields {α : Type} [Inhabited α] (id : Nat) (step : StateM Fields α) :
    Keeps (Reaches (σ := σ) w) (onFields id step) := by
  intro s
  refine Emits.reaches ?_
  unfold onFields
  cases s.stored? id with
  | none => exact .rest s
  | some d => exact .quiet rfl rfl

theorem reaches_checkBase (path : String) (d : Descriptor) :
    Keeps (Reaches (σ := σ) w) (checkBase path d) := by
  unfold checkBase
  dsimp only
  split
  · exact Keeps.bind (reaches_onFields d.id _) fun _ => Keeps.pure _
  · exact Keeps.pure _

variable [Outside σ]

/-- A search is a run if what the resolver does is. -/
theorem search_run {r : Registry} (hr : w.Fits r) {kind : DatasetKind}
    {s : Store σ} (hask : ∀ (q : Question) (s₁ : Store σ), q.kind = kind →
      s₁.outside = s.outside → Reaches w s₁ (q.ask s₁).2)
    (domain : Int) (path : String) (asked : List Question) :
    ∃ more, Run w ⟨s, asked⟩ (w.echo r [.sought kind domain path] ++ more)
      ⟨(search r kind domain path s).2, asked⟩ := by
  have hseek : Run w ⟨s, asked⟩ (w.echo r [.sought kind domain path])
      ⟨(seek r kind domain path s).2, (seek r kind domain path s).1.getRight?.toList ++ asked⟩ :=
    .one (.seeks hr kind domain path)
  unfold search
  rw [bind_apply]
  by_cases hseeks : Seeks kind domain path
  · obtain ⟨told, hsight, -⟩ := seek_sighting hr hseeks s
    have hout := outside_seek r kind domain path s
    generalize seek r kind domain path s = sought at hseek hsight hout ⊢
    obtain ⟨outcome, s₁⟩ := sought
    dsimp only at hseek hsight hout ⊢
    cases hsight with
    | hit => exact hseek.only
    | missed => exact hseek.only
    | asked domain q hregistry hkind =>
      obtain ⟨deeds, hwork⟩ := hask q s₁ hkind hout (q :: asked)
      obtain ⟨done, hconclude⟩ := conclude_run (hregistry ▸ hr) (q.ask s₁).1 (q.ask s₁).2 asked
      exact ⟨_, hseek.trans (hwork.trans hconclude)⟩
  · rw [seek_idle hseeks] at hseek ⊢
    exact hseek.only

/-- A resolver that is asked for a dictionary just answers. -/
theorem reaches_ask_dictionary {q : Question} (hkind : q.kind = .dictionary) :
    Keeps (Reaches w) (q.ask (σ := σ)) := by
  unfold Question.ask
  rw [hkind]
  exact Keeps.bind (reaches_onOutside _) fun _ => Keeps.pure _

theorem getDictionary_run {r : Registry} (hr : w.Fits r) (domain : Int) (path : String)
    (s : Store σ) (asked : List Question) :
    ∃ more, Run w ⟨s, asked⟩ (w.echo r [.sought .dictionary domain path] ++ more)
      ⟨(getDictionary r domain path s).2, asked⟩ := by
  rw [getDictionary_eq]
  exact search_run hr (fun q s₁ hkind _ => reaches_ask_dictionary hkind s₁) domain path asked

theorem reaches_getDictionary {r : Registry} (hr : w.Fits r) (domain : Int) (path : String) :
    Keeps (Reaches w) (getDictionary (σ := σ) r domain path) := by
  intro s asked
  obtain ⟨more, hrun⟩ := getDictionary_run hr domain path s asked
  exact ⟨_, hrun⟩

end Store

/-- What is looked up this way is looked up at handles that fit. -/
def Via.Fits (w : Watch) : Via → Prop
  | .default => w.Fits .default
  | .strong r | .weak r => w.Fits r
  | .nowhere | .table _ => True

def ExtensionReply.Fits (w : Watch) : ExtensionReply → Prop
  | .known _ => True
  | .fresh _ via => via.Fits w

namespace Store

variable {σ : Type} {w : Watch} [Outside σ]

/-! ### Datasets that call back -/

theorem reaches_findDictionary {via : Via} (hvia : via.Fits w) (domain : Int) (path : String) :
    Keeps (Reaches w) (findDictionary (σ := σ) via domain path) := by
  cases via with
  | nowhere => exact Keeps.pure _
  | default => exact Keeps.bind (reaches_getDictionary hvia domain path) fun _ => Keeps.pure _
  | strong r => exact Keeps.bind (reaches_getDictionary hvia domain path) fun _ => Keeps.pure _
  | weak r =>
    refine Keeps.bind Keeps.get fun s => ?_
    split
    · exact Keeps.bind (reaches_getDictionary hvia domain path) fun _ => Keeps.pure _
    · exact Keeps.pure _
  | table id => exact Keeps.bind (reaches_onOutside _) fun _ => Keeps.pure _

theorem reaches_findBase {via : Via} (hvia : via.Fits w) (key path : String) :
    Keeps (Reaches w) (findBase (σ := σ) via key path) := by
  refine Keeps.bind (reaches_findDictionary hvia _ key) fun found => ?_
  rcases found with e | _ | d
  · exact Keeps.pure _
  · exact Keeps.pure _
  · exact reaches_checkBase path d

theorem reaches_newExtension {via : Via} (hvia : via.Fits w) (domain : Int) (spec : DatasetSpec) :
    Keeps (Reaches w) (newExtension (σ := σ) domain spec via) := by
  refine Keeps.bind (reaches_findBase hvia _ _) fun found => ?_
  intro s
  have hquiet : Emits w [] s (addExtension domain spec via found s).2 := .quiet rfl rfl
  exact hquiet.reaches

/-- The handles that resolvers give to the extensions that they describe fit. -/
def SourcesFit (w : Watch) (outside : σ) : Prop :=
  ∀ (resolver : Nat) (domain : Int) (key : String) (reply : ExtensionReply),
    (Outside.extension resolver domain key outside).1 = .ok (some reply) → reply.Fits w

/-- A resolver that describes an extension has its base looked for before it answers. -/
theorem reaches_ask_extension {q : Question} (hkind : q.kind = .extension) {s : Store σ}
    (hsources : SourcesFit w s.outside) : Reaches w s (q.ask s).2 := by
  unfold Question.ask
  rw [hkind]
  dsimp only
  rw [bind_apply]
  have hasked := reaches_onOutside (w := w)
    (Outside.extension q.link.resolver q.domain q.key) s
  refine IsTrans.trans _ _ _ hasked ?_
  have hreply := hsources q.link.resolver q.domain q.key
  rw [show (Outside.extension q.link.resolver q.domain q.key s.outside).1 =
    (onOutside (Outside.extension q.link.resolver q.domain q.key) s).1 from rfl] at hreply
  generalize onOutside (Outside.extension q.link.resolver q.domain q.key) s = asked at hreply ⊢
  obtain ⟨answer, s₁⟩ := asked
  dsimp only at hreply ⊢
  rcases answer with e | _ | reply
  · exact Std.Refl.refl s₁
  · exact Std.Refl.refl s₁
  · cases reply with
    | known d => exact Std.Refl.refl s₁
    | fresh spec via => exact reaches_newExtension (hreply _ rfl) q.domain spec s₁

theorem getExtension_run {r : Registry} (hr : w.Fits r) {s : Store σ}
    (hsources : SourcesFit w s.outside) (domain : Int) (path : String) (asked : List Question) :
    ∃ more, Run w ⟨s, asked⟩ (w.echo r [.sought .extension domain path] ++ more)
      ⟨(getExtension r domain path s).2, asked⟩ := by
  rw [getExtension_eq]
  exact search_run hr
    (fun q s₁ hkind hout => reaches_ask_extension hkind (hout ▸ hsources)) domain path asked

end Store

/-! ### Any call -/

namespace RegistryCall

/-- The handle that is called. -/
def handle : RegistryCall → Registry
  | .register r _ | .unregister r _ | .invalidate r _ _ | .lookup r _ _ | .getDictionary r _ _
  | .getExtension r _ _ | .installResolver r _ => r

/-- What a call does by itself, by its answer. -/
def deeds (c : RegistryCall) (answer : RegistryAnswer) : List Deed :=
  match c with
  | .getDictionary _ domain path => [.sought .dictionary domain path]
  | .getExtension _ domain path => [.sought .extension domain path]
  | _ =>
    match answer with
    | .registered outcome => [.registered outcome]
    | .dropped any => [.dropped any]
    | _ => []

end RegistryCall

namespace Store

variable {σ : Type} {w : Watch} [Outside σ]

/-- Every call is a run, in which the call itself is done first. -/
theorem call_run {c : RegistryCall} (hc : w.Fits c.handle) {s : Store σ}
    (hsources : SourcesFit w s.outside) (asked : List Question) :
    ∃ more, Run w ⟨s, asked⟩ (w.echo c.handle (c.deeds (call c s).1) ++ more)
      ⟨(call c s).2, asked⟩ := by
  cases c with
  | register r d => exact (Run.one (.registers hc d)).only
  | unregister r d => exact (Run.one (.unregisters hc d)).only
  | invalidate r domain key => exact (Run.one (.invalidates hc domain key)).only
  | lookup r domain key =>
    have hquiet : Emits w [] s (lookup r domain key s).2 := .quiet rfl rfl
    exact (Run.quiet hquiet r asked).only
  | getDictionary r domain path =>
    unfold call
    dsimp only
    rw [map_apply]
    exact getDictionary_run hc domain path s asked
  | getExtension r domain path => exact getExtension_run hc hsources domain path asked
  | installResolver r resolver =>
    have hquiet : Emits w [] s (installResolver r resolver s).2 := by
      unfold installResolver
      split
      · exact .rest s
      · exact .quiet rfl rfl
    exact (Run.quiet hquiet r asked).only

end Store

end TenantSchema
