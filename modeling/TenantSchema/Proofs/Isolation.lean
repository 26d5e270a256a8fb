import TenantSchema.Proofs.CacheCoherent
import TenantSchema.Proofs.DomainInvariants
import TenantSchema.Store.Directory

/-!
# Tenant isolation

A domain is never handed what belongs to another tenant, whatever a resolver answers. The invariant
is about the caches: each holds descriptors of its own domain only.
-/

namespace TenantSchema

/-! ### Values of a cache -/

namespace Cache

variable {κ α : Type} [DecidableEq κ] {c : Cache κ α} {p : α → Prop}

/-- All values of the cache have the property. -/
def Only (p : α → Prop) (c : Cache κ α) : Prop := ∀ e ∈ c.entries, p e.value

omit [DecidableEq κ] in
theorem Only.of_sublist (h : c.Only p) {c' : Cache κ α} (hs : c'.entries.Sublist c.entries) :
    c'.Only p :=
  fun e he => h e (hs.subset he)

omit [DecidableEq κ] in
theorem Only.push (h : c.Only p) {e : CacheEntry κ α} (he : p e.value) : (c.push e).Only p := by
  intro e' he'
  rcases List.mem_append.mp he' with h' | h'
  · exact h e' h'
  · rw [List.mem_singleton.mp h']
    exact he

theorem evict_sublist (c : Cache κ α) : c.evict.entries.Sublist c.entries := by
  unfold evict
  split
  · exact List.Sublist.refl _
  · split
    · exact List.Sublist.refl _
    · next oldest rest hc =>
      rw [hc]
      exact List.sublist_cons_self oldest rest

theorem Only.append (h : c.Only p) {keys : List κ} {v : α} (hv : p v) :
    (c.append keys v).Only p := by
  have he : ({ c with counter := c.counter + 1 }.evict).Only p :=
    Only.of_sublist (c := { c with counter := c.counter + 1 }) h (evict_sublist _)
  intro e hm
  rw [Cache.append, entries_indexAll] at hm
  exact he.push hv e hm

theorem Only.replace (h : c.Only p) {e : CacheEntry κ α} {keys : List κ} {v : α} (hv : p v) :
    (c.replace e keys v).Only p := by
  have hd : (c.drop e.seq).Only p := h.of_sublist List.filter_sublist
  intro e' hm
  rw [Cache.replace, entries_indexAll] at hm
  exact hd.push (e := ⟨e.seq, keys, v⟩) hv e' hm

theorem Only.add (h : c.Only p) {v : α} (hv : p v) {c' : Cache κ α} (ha : c.add v = .ok c') :
    c'.Only p := by
  unfold Cache.add at ha
  split at ha
  · cases ha
  · dsimp only at ha
    split at ha
    · cases ha
      exact h.append hv
    · next seq ho =>
      split at ha
      · cases ha
        exact h.replace hv
      · cases ha
        exact (show ({ c with index := c.index.filter (·.2 ≠ seq) }).Only p from h).append hv
    · cases ha

/-- The entry that a key reaches is one of the cache. -/
theorem mem_of_owner {key : κ} {e : CacheEntry κ α} (ho : (c.seq? key).bind c.entry? = some e) :
    e ∈ c.entries := by
  obtain ⟨seq, -, he⟩ := Option.bind_eq_some_iff.mp ho
  exact List.mem_of_find?_eq_some he

theorem Only.get (h : c.Only p) (key : κ) :
    (c.get key).2.Only p ∧ ∀ v, (c.get key).1 = some v → p v := by
  unfold Cache.get
  split
  · next e ho =>
    have he : p e.value := h e (mem_of_owner ho)
    have hd : (c.drop e.seq).Only p := h.of_sublist List.filter_sublist
    refine ⟨hd.push he, ?_⟩
    rintro v ⟨⟩
    exact he
  · exact ⟨h, by simp⟩

theorem Only.deleteKeys (h : c.Only p) (keys : List κ) : (c.deleteKeys keys).2.Only p := by
  induction keys generalizing c with
  | nil => exact h
  | cons key rest ih =>
    have hr : (c.remove key).2.Only p := by
      unfold Cache.remove
      split
      · exact h.of_sublist List.filter_sublist
      · exact h
    exact ih (c := (c.deleteKey key).2) hr

end Cache

/-! ### Caches of registries -/

namespace Domains

/-- Every cache holds descriptors of its own domain only. -/
def Isolated (ds : Domains) : Prop := ∀ e ∈ ds.caches, Cache.Only (·.domain = e.1) e.2

variable {ds : Domains}

theorem isolated_ofConfig (config : RegistryConfig) : (ofConfig config).Isolated := by
  intro e he d hd
  rw [List.mem_singleton.mp he] at hd
  exact absurd hd List.not_mem_nil

theorem Isolated.cache (h : ds.Isolated) {domain : Int} {c : DescriptorCache}
    (hc : ds.cache? domain = some c) : Cache.Only (·.domain = domain) c :=
  h (domain, c) (mem_of_lookup hc)

theorem Isolated.erase (h : ds.Isolated) (domain : Int) : (ds.erase domain).Isolated :=
  fun e he => h e (List.mem_filter.mp he).1

theorem Isolated.setCache (h : ds.Isolated) {domain : Int} {c : DescriptorCache}
    (hc : Cache.Only (·.domain = domain) c) : (ds.setCache domain c).Isolated := by
  intro e he
  rcases List.mem_cons.mp he with rfl | he
  · exact hc
  · exact h.erase domain e he

theorem Isolated.lookup (h : ds.Isolated) (domain : Int) (key : String) :
    (ds.lookup domain key).2.Isolated ∧
      ∀ d, (ds.lookup domain key).1 = some d → d.domain = domain := by
  rcases ds.lookup_cases domain key with heq | ⟨c, hc, heq⟩ <;> rw [heq]
  · exact ⟨h, by simp⟩
  · obtain ⟨hk, hv⟩ := (h.cache hc).get (Text.lower key)
    exact ⟨h.setCache hk, hv⟩

theorem Isolated.home (h : ds.Isolated) (d : Descriptor) :
    Cache.Only (·.domain = d.domain) (ds.home d) := by
  unfold Domains.home
  cases hc : ds.cache? d.domain with
  | none => exact fun e he => absurd he List.not_mem_nil
  | some c => exact h.cache hc

theorem Isolated.register (h : ds.Isolated) {d : Descriptor} {ds' : Domains}
    (hr : ds.register d = .ok ds') : ds'.Isolated := by
  obtain ⟨c, ha, rfl⟩ := register_ok hr
  exact h.setCache ((h.home d).add rfl ha)

theorem Isolated.unregister (h : ds.Isolated) (d : Descriptor) :
    (ds.unregister d).2.Isolated := by
  rcases ds.unregister_cases d with heq | ⟨c, -, hc, heq | ⟨-, heq⟩⟩ <;> rw [heq]
  · exact h
  · exact h.erase _
  · exact h.setCache ((h.cache hc).deleteKeys _)

theorem isolated_invariant : Invariant (fun _ => True) Isolated where
  new := isolated_ofConfig
  lookup domain key h := (h.lookup domain key).1
  register _ h hr := h.register hr
  unregister d h := h.unregister d

end Domains

namespace Store

variable {σ : Type} {s : Store σ}

/-- Every cache of every registry holds descriptors of its own domain only. -/
def Isolated (s : Store σ) : Prop := ∀ ds ∈ s.domains, ds.Isolated

theorem lookup_isolated (r : Registry) (domain : Int) (key : String) :
    Yields Isolated (lookup (σ := σ) r domain key)
      fun found => ∀ d, found = some d → d.domain = domain := by
  intro s hs
  have hd := (Each.domainsOf Domains.isolated_invariant hs r).lookup domain key
  exact ⟨lookup_each Domains.isolated_invariant r domain key s hs, hd.2⟩

theorem steps_isolated : StepsKeep (Carries (Isolated (σ := σ))) :=
  steps_each Domains.isolated_invariant fun _ => trivial

/-! ### What a domain is given -/

theorem filter_eq_some {α : Type} {p : α → Bool} {o : Option α} {a : α}
    (h : o.filter p = some a) : o = some a := (Option.filter_eq_some_iff.mp h).1

theorem cachedDictionary_isolated (r : Registry) (key : String) (domains : List Int) :
    Yields Isolated (cachedDictionary (σ := σ) r key domains)
      fun found => ∀ e, found = some e → e.1 ∈ domains ∧ e.2.domain = e.1 := by
  induction domains with
  | nil => exact Yields.pure (by simp)
  | cons domain rest ih =>
    refine (lookup_isolated r domain key).bind fun found hfound => ?_
    cases hf : found.filter (·.kind = .dictionary) with
    | some d =>
      refine Yields.pure ?_
      rintro e ⟨⟩
      exact ⟨List.mem_cons_self, hfound d (filter_eq_some hf)⟩
    | none =>
      refine ih.mono fun found hrest e he => ?_
      obtain ⟨hm, hd⟩ := hrest e he
      exact ⟨List.mem_cons_of_mem _ hm, hd⟩

variable [Outside σ]

/-- The answer is a descriptor of this domain or of the global one, if it is any. -/
def Visible (domain : Int) (answer : Except RegistryError (Option Descriptor)) : Prop :=
  ∀ d, answer = .ok (some d) → d.domain = domain ∨ d.domain = globalDomain

theorem visible_none (domain : Int) : Visible domain (.ok none) := fun _ h => by cases h

theorem visible_error (domain : Int) (e : RegistryError) : Visible domain (.error e) :=
  fun _ h => by cases h

theorem visible_some {domain : Int} {d : Descriptor}
    (h : d.domain = domain ∨ d.domain = globalDomain) : Visible domain (.ok (some d)) := by
  rintro d' ⟨⟩
  exact h

theorem mem_visibleDomains {domain e : Int} (h : e ∈ visibleDomains domain) :
    e = domain ∨ e = globalDomain := by
  unfold visibleDomains at h
  split at h
  · exact .inl (List.mem_singleton.mp h)
  · simpa using h

theorem resolveDictionary_isolated (r : Registry) (link : ResolverLink) (domain : Int)
    (key : String) :
    Yields Isolated (resolveDictionary (σ := σ) r link domain key) (Visible domain) := by
  have steps := steps_isolated (σ := σ)
  refine .bind_keeps (steps.emit r _) fun _ => .bind_keeps (steps.outside _) fun answer => ?_
  cases answer with
  | error e => exact .bind_keeps (steps.emit r _) fun _ => .pure (visible_error _ _)
  | ok found =>
    dsimp only
    cases found.filter (·.kind = .dictionary) with
    | none => exact .pure (visible_none _)
    | some d =>
      dsimp only
      split
      · exact .bind_keeps (steps.emit r _) fun _ => .pure (visible_none _)
      · next hd =>
        have hv : d.domain = domain ∨ d.domain = globalDomain := by
          by_contra hn
          exact hd (not_or.mp hn)
        split
        · exact .bind_keeps (Keeps.discard (steps.register r d)) fun _ => .pure (visible_some hv)
        · exact .pure (visible_some hv)

theorem getDictionary_isolated (r : Registry) (domain : Int) (path : String) :
    Yields Isolated (getDictionary (σ := σ) r domain path) (Visible (max domain globalDomain)) := by
  have steps := steps_isolated (σ := σ)
  unfold getDictionary
  dsimp only
  split
  · exact .pure (visible_none _)
  · refine (cachedDictionary_isolated r _ _).bind fun cached hcached => ?_
    cases cached with
    | some e =>
      obtain ⟨hm, hd⟩ := hcached e rfl
      refine .bind_keeps (steps.emit r _) fun _ => .pure (visible_some ?_)
      rw [hd]
      exact mem_visibleDomains hm
    | none =>
      refine .bind_keeps (steps.emit r _) fun _ => ?_
      cases r.link with
      | none => exact .pure (visible_none _)
      | some link =>
        dsimp only
        split
        · exact .pure (visible_none _)
        · exact resolveDictionary_isolated r link _ _

/-- The answer is a descriptor of exactly this domain, if it is any. -/
def Owned (domain : Int) (answer : Except RegistryError (Option Descriptor)) : Prop :=
  ∀ d, answer = .ok (some d) → d.domain = domain

theorem owned_none (domain : Int) : Owned domain (.ok none) := fun _ h => by cases h

theorem owned_error (domain : Int) (e : RegistryError) : Owned domain (.error e) :=
  fun _ h => by cases h

theorem owned_some {domain : Int} {d : Descriptor} (h : d.domain = domain) :
    Owned domain (.ok (some d)) := by
  rintro d' ⟨⟩
  exact h

/-- What the resolver says about its domain is checked, even of an extension built for it. -/
theorem getExtension_isolated (r : Registry) (domain : Int) (path : String) :
    Yields Isolated (getExtension (σ := σ) r domain path) (Owned domain) := by
  have steps := steps_isolated (σ := σ)
  unfold getExtension
  dsimp only
  split
  · exact .pure (owned_none _)
  · refine (lookup_isolated r domain _).bind fun found hfound => ?_
    cases hf : found.filter (·.kind = .extension) with
    | some d =>
      have hd : d.domain = domain := hfound d (filter_eq_some hf)
      exact .bind_keeps (steps.emit r _) fun _ => .pure (owned_some hd)
    | none =>
      refine .bind_keeps (steps.emit r _) fun _ => ?_
      cases r.link with
      | none => exact .pure (owned_none _)
      | some link =>
        refine .bind_keeps (steps.emit r _) fun _ => .bind_keeps (steps.outside _) fun answer => ?_
        rcases answer with e | _ | reply
        · exact .bind_keeps (steps.emit r _) fun _ => .pure (owned_error _ _)
        · exact .pure (owned_none _)
        · refine .bind_keeps (acceptExtension_keeps steps.newExtension domain reply) fun accepted => ?_
          cases accepted with
          | none => exact .pure (owned_none _)
          | some d =>
            dsimp only
            split
            · exact .bind_keeps (steps.emit r _) fun _ => .pure (owned_none _)
            · next hd =>
              refine .bind_keeps (Keeps.discard (steps.register r d)) fun _ => ?_
              exact .pure (owned_some (not_not.mp hd))

/-- Whatever is called on registries that started with empty caches, and whatever their resolvers
answer: a domain is given dictionaries of its own or global ones, and extensions of its own, and
its cache holds nothing else than its own. -/
theorem tenants_isolated (configs : List RegistryConfig) (calls : List RegistryCall)
    (s : Store σ) :
    let s' := after call calls { s with domains := configs.map .ofConfig }
    (∀ ds ∈ s'.domains, ∀ domain c, ds.cache? domain = some c →
        ∀ d ∈ c.toList, d.domain = domain) ∧
      (∀ r domain path d, (getDictionary r domain path s').1 = .ok (some d) →
        d.domain = max domain 0 ∨ d.domain = 0) ∧
      ∀ r domain path d, (getExtension r domain path s').1 = .ok (some d) → d.domain = domain := by
  intro s'
  have hstart : Isolated { s with domains := configs.map .ofConfig } :=
    each_renew Domains.isolated_invariant configs s
  have hs : s'.Isolated := after_keeps (R := Carries Isolated) steps_isolated.call calls _ hstart
  refine ⟨?_, ?_, ?_⟩
  · intro ds hds domain c hc d hd
    obtain ⟨e, he, rfl⟩ := List.mem_map.mp hd
    exact (hs ds hds).cache hc e he
  · intro r domain path
    exact (getDictionary_isolated r domain path s' hs).2
  · intro r domain path
    exact (getExtension_isolated r domain path s' hs).2

/-- A resolver that answers the seventh domain with a dictionary of the ninth. -/
example :
    let d : Descriptor := { id := 0, kind := .dictionary, domain := 9, name := "a", path := "a" }
    let backend : Backend := ({} : Backend).putDictionary 7 "a" d
    let s : Store Directory := { outside := { backends := [backend] } }
    (getDictionary { Registry.default with link := some ⟨0, 0⟩ } 7 "a" s).1 = .ok none := by
  rfl

end Store

end TenantSchema
