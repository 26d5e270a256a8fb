import TenantSchema.Proofs.RegistryCalls

/-!
# Invariants of the caches by domain

A property of the caches of a registry that looking up, registering and dropping keep is kept by
every call to a registry. Registering has to keep it for those descriptors only that a call can
register: the ones that callers hand in, and descriptors of tenants.
-/

namespace TenantSchema

/-! ### What the operations do -/

namespace Domains

theorem lookup_cases (ds : Domains) (domain : Int) (key : String) :
    ds.lookup domain key = (none, ds) ∨ ∃ c, ds.cache? domain = some c ∧
      ds.lookup domain key = ((c.get (Text.lower key)).1,
        ds.setCache domain (c.get (Text.lower key)).2) := by
  unfold Domains.lookup
  cases hc : ds.cache? domain with
  | none => exact .inl rfl
  | some c => exact .inr ⟨c, rfl, rfl⟩

/-- The cache in which a descriptor is registered. -/
def home (ds : Domains) (d : Descriptor) : DescriptorCache :=
  (ds.cache? d.domain).getD (newCache ds.config d.domain)

theorem register_ok {ds ds' : Domains} {d : Descriptor} (h : ds.register d = .ok ds') :
    ∃ c, (ds.home d).add d = .ok c ∧ ds' = ds.setCache d.domain c := by
  have h : (do return ds.setCache d.domain (← (ds.home d).add d)) = Except.ok ds' := h
  cases ha : (ds.home d).add d with
  | error e =>
    rw [ha] at h
    cases h
  | ok c =>
    rw [ha] at h
    cases h
    exact ⟨c, rfl, rfl⟩

/-- Only caches of tenants are touched; one that is left empty by what was dropped goes. -/
theorem unregister_cases (ds : Domains) (d : Descriptor) :
    ds.unregister d = (false, ds) ∨ ∃ c, 1 ≤ d.domain ∧ ds.cache? d.domain = some c ∧
      (ds.unregister d = (true, ds.erase d.domain) ∨
        ¬((c.delete d).1 = true ∧ (c.delete d).2.isEmpty = true) ∧
          ds.unregister d = ((c.delete d).1, ds.setCache d.domain (c.delete d).2)) := by
  unfold Domains.unregister
  split
  · exact .inl rfl
  · next hpos =>
    cases hc : ds.cache? d.domain with
    | none => exact .inl rfl
    | some c =>
      refine .inr ⟨c, Int.not_lt.mp hpos, rfl, ?_⟩
      dsimp only
      split
      · exact .inl rfl
      · next hleft => exact .inr ⟨fun h => hleft (Bool.and_eq_true_iff.mpr h), rfl⟩

end Domains

/-! ### Invariants -/

/-- The caches of a registry keep `P` as long as only descriptors with `D` are registered. -/
structure Domains.Invariant (D : Descriptor → Prop) (P : Domains → Prop) : Prop where
  new : ∀ config, P (.ofConfig config)
  lookup : ∀ {ds : Domains} (domain : Int) (key : String), P ds → P (ds.lookup domain key).2
  register : ∀ {ds : Domains} {d : Descriptor} {ds' : Domains}, D d → P ds →
    ds.register d = .ok ds' → P ds'
  unregister : ∀ {ds : Domains} (d : Descriptor), P ds → P (ds.unregister d).2

/-- All that a caller of the registry hands in to be registered has the property. -/
def RegistryCall.Registers (D : Descriptor → Prop) (c : RegistryCall) : Prop :=
  ∀ r d, c = .register r d → D d

namespace Store

variable {σ : Type} {D : Descriptor → Prop} {P : Domains → Prop}

/-- The caches of every registry have the property. -/
def Each (P : Domains → Prop) (s : Store σ) : Prop := ∀ ds ∈ s.domains, P ds

/-- New registries with these settings, in place of all that there are. -/
def renew (configs : List RegistryConfig) (s : Store σ) : Store σ :=
  { s with domains := configs.map .ofConfig }

theorem each_renew (h : Domains.Invariant D P) (configs : List RegistryConfig) (s : Store σ) :
    Each P (s.renew configs) := by
  intro ds hds
  obtain ⟨config, -, rfl⟩ := List.mem_map.mp hds
  exact h.new config

/-- Steps that leave the caches alone do no harm. -/
theorem carries_each {α : Type} {m : StateM (Store σ) α} (h : ∀ s, (m s).2.domains = s.domains) :
    Keeps (Carries (Each P)) m := by
  intro s hs
  unfold Each
  rw [h s]
  exact hs

theorem domains_onFields {α : Type} [Inhabited α] (id : Nat) (step : StateM Fields α)
    (s : Store σ) : (onFields id step s).2.domains = s.domains := by
  unfold onFields
  cases s.stored? id <;> rfl

theorem domains_installResolver (r : Registry) (resolver : Nat) (s : Store σ) :
    (installResolver r resolver s).2.domains = s.domains := by
  unfold installResolver
  split <;> rfl

theorem Each.setDomains {s : Store σ} (h : Each P s) (r : Registry) {ds : Domains} (hds : P ds) :
    Each P (s.setDomains r ds) := by
  intro ds' hm
  rcases List.mem_or_eq_of_mem_set hm with hm | rfl
  · exact h ds' hm
  · exact hds

section Steps

variable (h : Domains.Invariant D P)

include h

theorem Each.domainsOf {s : Store σ} (hs : Each P s) (r : Registry) : P (s.domainsOf r) := by
  unfold Store.domainsOf
  cases hd : s.domains[r.domains]? with
  | none => exact h.new {}
  | some ds => exact hs ds (List.mem_of_getElem? hd)

theorem lookup_each (r : Registry) (domain : Int) (key : String) :
    Keeps (Carries (Each P)) (lookup (σ := σ) r domain key) :=
  fun _ hs => hs.setDomains r (h.lookup domain key (hs.domainsOf h r))

theorem register_each (r : Registry) {d : Descriptor} (hd : D d) :
    Keeps (Carries (Each P)) (register (σ := σ) r d) := by
  intro s hs
  rw [register_eq]
  cases hr : (s.domainsOf r).register d with
  | ok ds => exact hs.setDomains r (h.register hd (hs.domainsOf h r) hr)
  | error e =>
    dsimp only
    split <;> exact hs

theorem unregister_each (r : Registry) (d : Descriptor) :
    Keeps (Carries (Each P)) (unregister (σ := σ) r d) := by
  intro s hs
  have hds := hs.setDomains r (h.unregister d (hs.domainsOf h r))
  rw [unregister_eq]
  dsimp only
  split <;> exact hds

theorem quiet_each : QuietSteps (Carries (Each (σ := σ) P)) where
  lookup := lookup_each h
  emit _ _ := carries_each fun _ => rfl
  install r resolver := carries_each (domains_installResolver r resolver)
  outside _ := carries_each fun _ => rfl
  primary id := carries_each (domains_onFields id _)
  add _ _ _ _ := carries_each fun _ => rfl

/-- An invariant of all registering is kept by every elementary step. -/
theorem steps_each (hall : ∀ d, D d) : StepsKeep (Carries (Each (σ := σ) P)) where
  toQuietSteps := quiet_each h
  register r d := register_each h r (hall d)
  unregister := unregister_each h

variable [Outside σ]

/-- One call; what a resolver brings belongs to a tenant. -/
theorem call_each (htenant : ∀ d : Descriptor, globalDomain < d.domain → D d) {c : RegistryCall}
    (hc : c.Registers D) : Keeps (Carries (Each P)) (call (σ := σ) c) := by
  have quiet := quiet_each (σ := σ) h
  cases c with
  | register r d => exact Keeps.map _ (register_each h r (hc r d rfl))
  | unregister r d => exact Keeps.map _ (unregister_each h r d)
  | invalidate r domain key =>
    refine Keeps.map _ (Keeps.bind (lookup_each h r domain key) fun found => ?_)
    cases found with
    | none => exact Keeps.pure _
    | some d => exact unregister_each h r d
  | lookup r domain key => exact Keeps.map _ (lookup_each h r domain key)
  | getDictionary r domain path =>
    refine Keeps.map _ fun s => (quiet.getDictionary_ends r domain path s).keeps fun d hd => ?_
    exact register_each h r (htenant d (hd.own ▸ hd.tenant))
  | getExtension r domain path =>
    refine Keeps.map _ fun s =>
      (quiet.getExtension_ends quiet.newExtension r domain path s).keeps fun d hd => ?_
    exact register_each h r (htenant d (hd.own ▸ hd.tenant))
  | installResolver r resolver => exact Keeps.map _ (quiet.install r resolver)

/-- A run from new registries. -/
theorem after_each (htenant : ∀ d : Descriptor, globalDomain < d.domain → D d)
    {calls : List RegistryCall} (hcalls : ∀ c ∈ calls, c.Registers D)
    (configs : List RegistryConfig) (s : Store σ) :
    Each P (after call calls (s.renew configs)) := by
  have hrun : ∀ s : Store σ, Each P s → Each P (after call calls s) := by
    induction calls with
    | nil => exact fun _ hs => hs
    | cons c rest ih =>
      intro s hs
      refine ih (fun c hc => hcalls c (List.mem_cons_of_mem _ hc)) _ ?_
      exact call_each h htenant (hcalls c List.mem_cons_self) s hs
  exact hrun _ (each_renew h configs s)

end Steps

end Store

end TenantSchema
