import TenantSchema.Proofs.Runs
import TenantSchema.Store.Registry

/-!
# Calls to registries

Whatever registries do is made of a few elementary steps: those of the caches, of the counters, of
the sources and of the datasets. What these keep is kept by every call, lookups of bases and newly
built extensions included.
-/

namespace TenantSchema

/-- A call to a registry, which is any handle on its caches with any resolver. -/
inductive RegistryCall where
  | register (r : Registry) (d : Descriptor)
  | unregister (r : Registry) (d : Descriptor)
  | invalidate (r : Registry) (domain : Int) (key : String)
  | lookup (r : Registry) (domain : Int) (key : String)
  | getDictionary (r : Registry) (domain : Int) (path : String)
  | getExtension (r : Registry) (domain : Int) (path : String)
  | installResolver (r : Registry) (resolver : Nat)

inductive RegistryAnswer where
  | registered (outcome : Except RegistryError Unit)
  | dropped (any : Bool)
  | cached (found : Option Descriptor)
  | resolved (outcome : Except RegistryError (Option Descriptor))
  | registry (r : Registry)

namespace Store

variable {σ : Type}

def call [Outside σ] : RegistryCall → StateM (Store σ) RegistryAnswer
  | .register r d => .registered <$> register r d
  | .unregister r d => .dropped <$> unregister r d
  | .invalidate r domain key => .dropped <$> invalidate r domain key
  | .lookup r domain key => .cached <$> lookup r domain key
  | .getDictionary r domain path => .resolved <$> getDictionary r domain path
  | .getExtension r domain path => .resolved <$> getExtension r domain path
  | .installResolver r resolver => .registry <$> installResolver r resolver

/-- A refused descriptor leaves the caches as they are. -/
theorem register_eq (r : Registry) (d : Descriptor) (s : Store σ) :
    register r d s =
      match (s.domainsOf r).register d with
      | .ok ds => (.ok (), (emit r (.registered d.domain) (s.setDomains r ds)).2)
      | .error e =>
        (.error (.cache e),
          if e.errorClass = .conflict then (emit r (.conflict d.domain) s).2 else s) := by
  unfold register
  rw [get_bind_apply]
  cases (s.domainsOf r).register d with
  | ok ds => rfl
  | error e =>
    by_cases hc : e.errorClass = .conflict
    · simp only [hc, if_true]
      rfl
    · simp only [hc, if_false]
      rfl

theorem unregister_eq (r : Registry) (d : Descriptor) (s : Store σ) :
    unregister r d s =
      let ds := (s.domainsOf r).unregister d
      (ds.1, if ds.1 then (emit r (.unregistered d.domain) (s.setDomains r ds.2)).2
        else s.setDomains r ds.2) := by
  unfold unregister
  rw [get_bind_apply]
  rcases (s.domainsOf r).unregister d with ⟨removed, ds⟩
  cases removed <;> rfl

/-- The elementary steps that neither register nor create anything keep `R`. -/
structure LookupSteps (R : Store σ → Store σ → Prop) : Prop where
  lookup : ∀ r domain key, Keeps R (lookup r domain key)
  emit : ∀ r e, Keeps R (emit r e)
  install : ∀ r resolver, Keeps R (installResolver r resolver)
  outside : ∀ {α : Type} (step : StateM σ α), Keeps R (onOutside step)
  primary : ∀ id, Keeps R (onFields id Fields.primaryField)

/-- The elementary steps that neither register nor unregister keep `R`. -/
structure QuietSteps (R : Store σ → Store σ → Prop) : Prop extends LookupSteps R where
  add : ∀ domain spec via found, Keeps R (addExtension domain spec via found)

/-- The elementary steps keep `R`. -/
structure StepsKeep (R : Store σ → Store σ → Prop) : Prop extends QuietSteps R where
  register : ∀ r d, Keeps R (register r d)
  unregister : ∀ r d, Keeps R (unregister r d)

theorem outside_cachedDictionary (r : Registry) (key : String) (domains : List Int) (s : Store σ) :
    (cachedDictionary r key domains s).2.outside = s.outside := by
  induction domains generalizing s with
  | nil => rfl
  | cons domain rest ih =>
    unfold cachedDictionary
    rw [bind_apply]
    have hlookup : (lookup r domain key s).2.outside = s.outside := rfl
    cases (lookup r domain key s).1.filter (·.kind = .dictionary) with
    | some d => exact hlookup
    | none => exact (ih _).trans hlookup

end Store

/-- A reply with an extension of the domain, or with one to build for it. -/
def ExtensionReply.Suits (domain : Int) (reply : ExtensionReply) : Prop :=
  ∀ d, reply = .known d → d.kind = .extension ∧ d.domain = domain

namespace Store

/-- What a resolver knows is accepted as it is. -/
theorem accepted_known [Outside σ] (domain : Int) (reply : ExtensionReply) (s : Store σ) :
    ∀ d, (acceptExtension domain reply s).1 = some d →
      ∀ known, reply = .known known → d = known ∧ known.kind = .extension := by
  rintro d hd known rfl
  have hd : (if known.kind = .extension then some known else none) = some d := hd
  split at hd
  · next hkind => exact ⟨(Option.some.inj hd).symm, hkind⟩
  · cases hd

theorem acceptExtension_keeps [Outside σ] {R : Store σ → Store σ → Prop}
    [IsPreorder (Store σ) R] (hnew : ∀ domain spec via, Keeps R (newExtension domain spec via))
    (domain : Int) (reply : ExtensionReply) : Keeps R (acceptExtension domain reply) := by
  cases reply with
  | known d => exact Keeps.pure _
  | fresh spec via => exact Keeps.bind (hnew domain spec via) fun _ => Keeps.pure _

/-! ### One registration at the end -/

/-- `R` holds between the states, but for a last step that may register a descriptor with `P`. -/
def EndsRegistering (R : Store σ → Store σ → Prop) (r : Registry) (P : Descriptor → Prop)
    (s s' : Store σ) : Prop :=
  ∃ s₁, R s s₁ ∧ (s' = s₁ ∨ ∃ d, P d ∧ s' = (register r d s₁).2)

namespace EndsRegistering

variable {R : Store σ → Store σ → Prop} {r : Registry} {P P' : Descriptor → Prop}
  {s s₁ s' : Store σ}

theorem quiet (h : R s s') : EndsRegistering R r P s s' := ⟨s', h, .inl rfl⟩

theorem last {d : Descriptor} (h : R s s₁) (hd : P d) :
    EndsRegistering R r P s (register r d s₁).2 :=
  ⟨s₁, h, .inr ⟨d, hd, rfl⟩⟩

theorem mono (h : EndsRegistering R r P s s') (hP : ∀ d, P d → P' d) :
    EndsRegistering R r P' s s' := by
  obtain ⟨s₁, hs₁, heq | ⟨d, hd, heq⟩⟩ := h
  · exact ⟨s₁, hs₁, .inl heq⟩
  · exact ⟨s₁, hs₁, .inr ⟨d, hP d hd, heq⟩⟩

variable [IsPreorder (Store σ) R]

theorem after (h : R s s₁) (h' : EndsRegistering R r P s₁ s') : EndsRegistering R r P s s' := by
  obtain ⟨s₂, hs₂, hend⟩ := h'
  exact ⟨s₂, IsTrans.trans _ _ _ h hs₂, hend⟩

/-- `R` holds to the end if registering such descriptors keeps it. -/
theorem keeps (h : EndsRegistering R r P s s') (hregister : ∀ d, P d → Keeps R (register r d)) :
    R s s' := by
  obtain ⟨s₁, hs₁, rfl | ⟨d, hd, rfl⟩⟩ := h
  · exact hs₁
  · exact IsTrans.trans _ _ _ hs₁ (hregister d hd s₁)

end EndsRegistering

/-- The resolver finds the dictionary for a tenant. -/
structure FindsDictionary [Outside σ] (r : Registry) (domain : Int) (key : String) (outside : σ)
    (d : Descriptor) : Prop where
  reply : ∃ link, r.link = some link ∧
    (Outside.dictionary link.resolver domain key outside).1 = .ok (some d)
  kind : d.kind = .dictionary
  own : d.domain = domain
  tenant : globalDomain < domain

/-- The resolver finds or describes the extension of a tenant. -/
structure BringsExtension [Outside σ] (r : Registry) (domain : Int) (key : String) (outside : σ)
    (d : Descriptor) : Prop where
  reply : ∃ link reply, r.link = some link ∧
    (Outside.extension link.resolver domain key outside).1 = .ok (some reply) ∧
    reply.Suits domain
  own : d.domain = domain
  tenant : globalDomain < domain

namespace LookupSteps

variable {R : Store σ → Store σ → Prop} [IsPreorder (Store σ) R] (h : LookupSteps R)

include h

theorem cachedDictionary (r : Registry) (key : String) (domains : List Int) :
    Keeps R (cachedDictionary r key domains) := by
  induction domains with
  | nil => exact Keeps.pure _
  | cons domain rest ih =>
    refine Keeps.bind (h.lookup r domain key) fun found => ?_
    cases found.filter (·.kind = .dictionary) with
    | some d => exact Keeps.pure _
    | none => exact ih

theorem checkBase (path : String) (d : Descriptor) : Keeps R (checkBase path d) := by
  unfold Store.checkBase
  dsimp only
  split
  · exact Keeps.bind (h.primary d.id) fun _ => Keeps.pure _
  · exact Keeps.pure _

variable [Outside σ]

/-! ### Dictionaries -/

/-- A resolver is asked once. What it finds is registered if it belongs to a tenant, and that is
the last step. -/
theorem resolveDictionary_ends (r : Registry) (link : ResolverLink) (domain : Int) (key : String)
    (s : Store σ) :
    EndsRegistering R r
      (fun d => (Outside.dictionary link.resolver domain key s.outside).1 = .ok (some d) ∧
        d.kind = .dictionary ∧ d.domain = domain ∧ globalDomain < domain)
      s (resolveDictionary r link domain key s).2 := by
  have hasked : R s (onOutside (Outside.dictionary link.resolver domain key)
      (Store.emit r (.resolverCall .dictionary domain) s).2).2 :=
    IsTrans.trans _ _ _ (h.emit r _ s) (h.outside _ _)
  refine EndsRegistering.after hasked ?_
  unfold resolveDictionary
  rw [bind_apply, bind_apply]
  generalize (onOutside (Outside.dictionary link.resolver domain key)
    (Store.emit r (.resolverCall .dictionary domain) s).2).2 = s₁
  rw [show (onOutside (Outside.dictionary link.resolver domain key)
    (Store.emit r (.resolverCall .dictionary domain) s).2).1 =
      (Outside.dictionary link.resolver domain key s.outside).1 from rfl]
  cases (Outside.dictionary link.resolver domain key s.outside).1 with
  | error e => exact .quiet (h.emit r _ s₁)
  | ok found =>
    dsimp only
    cases hf : found.filter (·.kind = .dictionary) with
    | none => exact .quiet (Std.Refl.refl s₁)
    | some d =>
      obtain ⟨rfl, hkind⟩ := Option.filter_eq_some_iff.mp hf
      dsimp only
      split
      · exact .quiet (h.emit r _ s₁)
      · next hd =>
        split
        · next hpos =>
          have hdomain : d.domain = domain := by omega
          exact .last (Std.Refl.refl s₁) ⟨rfl, by simpa using hkind, hdomain, hdomain ▸ hpos⟩
        · exact .quiet (Std.Refl.refl s₁)

/-- All that looking for a dictionary can register is what the resolver finds for a tenant that
asks for it. -/
theorem getDictionary_ends (r : Registry) (domain : Int) (path : String) (s : Store σ) :
    EndsRegistering R r (FindsDictionary r domain (Text.lower path) s.outside) s
      (getDictionary r domain path s).2 := by
  unfold Store.getDictionary
  split
  · exact .quiet (Std.Refl.refl s)
  · rw [bind_apply]
    have hcached := h.cachedDictionary r (Text.lower path)
      (visibleDomains (max domain globalDomain)) s
    have hout := outside_cachedDictionary r (Text.lower path)
      (visibleDomains (max domain globalDomain)) s
    generalize Store.cachedDictionary r (Text.lower path)
      (visibleDomains (max domain globalDomain)) s = cached at hcached hout
    obtain ⟨found, s₀⟩ := cached
    dsimp only at hcached hout ⊢
    refine .after hcached ?_
    cases found with
    | some found => exact .quiet (h.emit r _ s₀)
    | none =>
      have hmissed := h.emit r (.cacheMiss (max domain globalDomain)) s₀
      dsimp only
      rw [bind_apply]
      cases hlink : r.link with
      | none => exact .quiet hmissed
      | some link =>
        dsimp only
        split
        · exact .quiet hmissed
        · next hglobal =>
          have hmax : max domain globalDomain = domain := by
            unfold globalDomain at hglobal ⊢
            omega
          rw [hmax] at hmissed ⊢
          refine .after hmissed ((h.resolveDictionary_ends r link domain _ _).mono ?_)
          rintro d ⟨hreply, hkind, hdomain, hpos⟩
          exact ⟨⟨link, hlink, hout ▸ hreply⟩, hkind, hdomain, hpos⟩

/-- Nothing is registered on the way to a global dictionary. -/
theorem getDictionary_global (r : Registry) (path : String) :
    Keeps R (getDictionary r globalDomain path) := by
  intro s
  exact (h.getDictionary_ends r globalDomain path s).keeps fun d hd =>
    absurd hd.tenant (Int.lt_irrefl _)

/-! ### Extensions -/

theorem findBase (via : Via) (key path : String) : Keeps R (findBase via key path) := by
  have hfind : Keeps R (findDictionary via globalDomain key) := by
    cases via with
    | nowhere => exact Keeps.pure _
    | default => exact Keeps.bind (h.getDictionary_global _ key) fun _ => Keeps.pure _
    | strong r => exact Keeps.bind (h.getDictionary_global r key) fun _ => Keeps.pure _
    | weak r =>
      refine Keeps.bind Keeps.get fun s => ?_
      split
      · exact Keeps.bind (h.getDictionary_global r key) fun _ => Keeps.pure _
      · exact Keeps.pure _
    | table id => exact Keeps.bind (h.outside _) fun _ => Keeps.pure _
  refine Keeps.bind hfind fun found => ?_
  rcases found with e | _ | d
  · exact Keeps.pure _
  · exact Keeps.pure _
  · exact h.checkBase path d

section New

variable (hnew : ∀ domain spec via, Keeps R (newExtension domain spec via))

include hnew

/-- All that looking for an extension can register is an extension of the domain that asks, which
the resolver has found or describes. -/
theorem getExtension_ends (r : Registry) (domain : Int) (path : String) (s : Store σ) :
    EndsRegistering R r (BringsExtension r domain (Text.lower path) s.outside) s
      (getExtension r domain path s).2 := by
  unfold Store.getExtension
  split
  · exact .quiet (Std.Refl.refl s)
  · next hguard =>
    have hpos : globalDomain < domain := Int.not_lt.mp (not_or.mp hguard).1
    have hlookup := h.lookup r domain (Text.lower path) s
    have hout : (Store.lookup r domain (Text.lower path) s).2.outside = s.outside := rfl
    rw [bind_apply]
    generalize Store.lookup r domain (Text.lower path) s = looked at hlookup hout
    obtain ⟨found, s₀⟩ := looked
    dsimp only at hlookup hout ⊢
    refine .after hlookup ?_
    cases found.filter (·.kind = .extension) with
    | some d => exact .quiet (h.emit r _ s₀)
    | none =>
      dsimp only
      rw [bind_apply]
      refine .after (h.emit r (.cacheMiss domain) s₀) ?_
      cases hlink : r.link with
      | none => exact .quiet (Std.Refl.refl _)
      | some link =>
        dsimp only
        rw [bind_apply]
        refine .after (h.emit r (.resolverCall .extension domain) _) ?_
        rw [bind_apply]
        refine .after (h.outside (Outside.extension link.resolver domain (Text.lower path)) _) ?_
        generalize hs₁ : (onOutside (Outside.extension link.resolver domain (Text.lower path))
          (Store.emit r (.resolverCall .extension domain)
            (Store.emit r (.cacheMiss domain) s₀).2).2) = asked
        have hreply : asked.1 =
            (Outside.extension link.resolver domain (Text.lower path) s.outside).1 := by
          rw [← hs₁, ← hout]
          rfl
        obtain ⟨answer, s₁⟩ := asked
        dsimp only at hreply ⊢
        rcases answer with e | _ | reply
        · exact .quiet (h.emit r _ s₁)
        · exact .quiet (Std.Refl.refl s₁)
        · dsimp only
          rw [bind_apply]
          refine .after (acceptExtension_keeps hnew domain reply s₁) ?_
          have hsuits := accepted_known domain reply s₁
          generalize Store.acceptExtension domain reply s₁ = accepted at hsuits ⊢
          obtain ⟨built, s₂⟩ := accepted
          dsimp only at hsuits ⊢
          cases built with
          | none => exact .quiet (Std.Refl.refl s₂)
          | some d =>
            dsimp only
            split
            · exact .quiet (h.emit r _ s₂)
            · next hd =>
              have hd : d.domain = domain := Decidable.not_not.mp hd
              refine .last (Std.Refl.refl s₂) ⟨⟨link, reply, hlink, hreply.symm, ?_⟩, hd, hpos⟩
              rintro known rfl
              obtain ⟨hk, hkind⟩ := hsuits d rfl known rfl
              exact ⟨hkind, hk ▸ hd⟩

end New

/-! ### Calls -/

section Registering

variable (hregister : ∀ r d, Keeps R (register r d))

include hregister

theorem getDictionary (r : Registry) (domain : Int) (path : String) :
    Keeps R (getDictionary r domain path) := by
  intro s
  exact (h.getDictionary_ends r domain path s).keeps fun d _ => hregister r d

theorem findDictionary (via : Via) (domain : Int) (path : String) :
    Keeps R (findDictionary via domain path) := by
  cases via with
  | nowhere => exact Keeps.pure _
  | default => exact Keeps.bind (h.getDictionary hregister _ domain path) fun _ => Keeps.pure _
  | strong r => exact Keeps.bind (h.getDictionary hregister r domain path) fun _ => Keeps.pure _
  | weak r =>
    refine Keeps.bind Keeps.get fun s => ?_
    split
    · exact Keeps.bind (h.getDictionary hregister r domain path) fun _ => Keeps.pure _
    · exact Keeps.pure _
  | table id => exact Keeps.bind (h.outside _) fun _ => Keeps.pure _

variable (hnew : ∀ domain spec via, Keeps R (newExtension domain spec via))

include hnew

theorem getExtension (r : Registry) (domain : Int) (path : String) :
    Keeps R (getExtension r domain path) := by
  intro s
  exact (h.getExtension_ends hnew r domain path s).keeps fun d _ => hregister r d

/-- A call keeps what its steps keep. -/
theorem call (hunregister : ∀ r d, Keeps R (unregister r d)) (c : RegistryCall) :
    Keeps R (call c) := by
  cases c with
  | register r d => exact Keeps.map _ (hregister r d)
  | unregister r d => exact Keeps.map _ (hunregister r d)
  | invalidate r domain key =>
    refine Keeps.map _ (Keeps.bind (h.lookup r domain key) fun found => ?_)
    cases found with
    | none => exact Keeps.pure _
    | some d => exact hunregister r d
  | lookup r domain key => exact Keeps.map _ (h.lookup r domain key)
  | getDictionary r domain path => exact Keeps.map _ (h.getDictionary hregister r domain path)
  | getExtension r domain path => exact Keeps.map _ (h.getExtension hregister hnew r domain path)
  | installResolver r resolver => exact Keeps.map _ (h.install r resolver)

end Registering

end LookupSteps

namespace QuietSteps

variable {R : Store σ → Store σ → Prop} [IsPreorder (Store σ) R] (h : QuietSteps R) [Outside σ]

include h

theorem newExtension (domain : Int) (spec : DatasetSpec) (via : Via) :
    Keeps R (newExtension domain spec via) :=
  Keeps.bind (h.findBase via _ _) fun _ => h.add domain spec via _

theorem createExtension? (domain : Int) (spec : DatasetSpec) (via : Via)
    (base : Option Descriptor) : Keeps R (createExtension? domain spec via base) := by
  unfold Store.createExtension?
  split
  · exact Keeps.pure _
  · cases base with
    | none => exact Keeps.bind (h.newExtension domain spec via) fun _ => Keeps.pure _
    | some base =>
      refine Keeps.bind (Keeps.bind (h.checkBase _ base) fun _ => ?_) fun _ => Keeps.pure _
      exact h.add domain spec .default _

end QuietSteps

/-- Every call keeps what the elementary steps keep. -/
theorem StepsKeep.call [Outside σ] {R : Store σ → Store σ → Prop} [IsPreorder (Store σ) R]
    (h : StepsKeep R) (c : RegistryCall) : Keeps R (call c) :=
  h.toLookupSteps.call h.register h.newExtension h.unregister c

end Store

end TenantSchema
