import TenantSchema.Proofs.CacheCoherent
import TenantSchema.Proofs.DomainInvariants
import TenantSchema.Store.Directory

/-!
# The caches of a registry

The global cache is always there and every other cache belongs to a tenant and holds something. No
cache outgrows its capacity, and in each of them the lower-cased names and paths lead to the
descriptors that have them, no two descriptors sharing one. Refused descriptors change nothing.
-/

namespace TenantSchema

/-! ### One cache -/

namespace Cache

variable {κ α : Type} [DecidableEq κ]

/-- A cache for so many values, each of them under all of its keys. -/
structure Kept (capacity : Nat) (keysOf : α → List κ) (c : Cache κ α) : Prop where
  coherent : c.Coherent
  limit : c.capacity = max capacity 1
  keyed : c.keysOf = keysOf
  labelled : ∀ e ∈ c.entries, e.keys = (keysOf e.value).eraseDups

variable {capacity : Nat} {keysOf : α → List κ} {c : Cache κ α}

theorem kept_empty (capacity : Nat) (keysOf : α → List κ) :
    (empty capacity keysOf).Kept capacity keysOf where
  coherent := empty_coherent capacity keysOf
  limit := rfl
  keyed := rfl
  labelled := fun _ he => absurd he List.not_mem_nil

theorem mem_append {keys : List κ} {v : α} {e : CacheEntry κ α} (h : c.Coherent)
    (he : e ∈ (c.append keys v).entries) : e ∈ c.entries ∨ e.keys = keys ∧ e.value = v := by
  rw [Cache.append, entries_indexAll] at he
  rcases List.mem_append.mp he with he | he
  · exact .inl ((h.count (Nat.le_succ c.counter)).mem_of_mem_evict he)
  · rw [List.mem_singleton.mp he]
    exact .inr ⟨rfl, rfl⟩

theorem mem_replace {keys : List κ} {v : α} {e e' : CacheEntry κ α}
    (he : e ∈ (c.replace e' keys v).entries) : e ∈ c.entries ∨ e.keys = keys ∧ e.value = v := by
  rw [Cache.replace, entries_indexAll] at he
  rcases List.mem_append.mp he with he | he
  · exact .inl (List.mem_filter.mp he).1
  · rw [List.mem_singleton.mp he]
    exact .inr ⟨rfl, rfl⟩

/-- A value that is added is there, under all of its keys. -/
theorem Kept.add (h : c.Kept capacity keysOf) {v : α} {c' : Cache κ α} (ha : c.add v = .ok c') :
    c'.Kept capacity keysOf ∧ c'.entries ≠ [] := by
  have hcoherent := h.coherent.add ha
  have hkeys : c.keys v = (keysOf v).eraseDups := by rw [keys, h.keyed]
  have hlabel {e : CacheEntry κ α} (he : e ∈ c.entries ∨ e.keys = c.keys v ∧ e.value = v) :
      e.keys = (keysOf e.value).eraseDups := by
    rcases he with he | ⟨hk, hv⟩
    · exact h.labelled e he
    · rw [hk, hv, hkeys]
  obtain ⟨-, ho⟩ | ⟨-, -, ho⟩ | ⟨e, -, -, -, ho⟩ | ⟨-, ho⟩ := h.coherent.add_cases v
  · rw [ha] at ho
    cases ho
  · rw [ha] at ho
    cases ho
    have hlast : (c.append (c.keys v) v).entries ≠ [] := by simp [Cache.append, push]
    refine ⟨⟨hcoherent, ?_, ?_, fun e he => hlabel (mem_append h.coherent he)⟩, hlast⟩
    · simpa [Cache.append, push] using h.limit
    · simpa [Cache.append, push] using h.keyed
  · rw [ha] at ho
    cases ho
    have hlast : (c.replace e (c.keys v) v).entries ≠ [] := by
      simp [Cache.replace, push, unindex]
    refine ⟨⟨hcoherent, ?_, ?_, fun e he => hlabel (mem_replace he)⟩, hlast⟩
    · simpa [Cache.replace, push, drop, unindex] using h.limit
    · simpa [Cache.replace, push, drop, unindex] using h.keyed
  · rw [ha] at ho
    cases ho

/-- Looking something up only changes the order of the entries. -/
theorem Coherent.get_perm (h : c.Coherent) (key : κ) :
    (c.get key).2.entries.Perm c.entries := by
  unfold Cache.get
  split
  · next e ho => exact h.promote_perm (h.owner_some ho).1
  · exact List.Perm.refl _

theorem Kept.get (h : c.Kept capacity keysOf) (key : κ) : (c.get key).2.Kept capacity keysOf where
  coherent := h.coherent.get key
  limit := by
    unfold Cache.get
    split <;> exact h.limit
  keyed := by
    unfold Cache.get
    split <;> exact h.keyed
  labelled e he := h.labelled e ((h.coherent.get_perm key).mem_iff.mp he)

/-- What deleting leaves behind: the settings of the cache and some of its entries, or all of them
if there was nothing to delete. -/
theorem deleteKeys_spec (c : Cache κ α) (keys : List κ) :
    (c.deleteKeys keys).2.capacity = c.capacity ∧ (c.deleteKeys keys).2.keysOf = c.keysOf ∧
      (c.deleteKeys keys).2.entries ⊆ c.entries ∧
      ((c.deleteKeys keys).1 = false → (c.deleteKeys keys).2.entries = c.entries) := by
  induction keys generalizing c with
  | nil => exact ⟨rfl, rfl, List.Subset.refl _, fun _ => rfl⟩
  | cons key rest ih =>
    have hone : (c.deleteKey key).2.capacity = c.capacity ∧
        (c.deleteKey key).2.keysOf = c.keysOf ∧ (c.deleteKey key).2.entries ⊆ c.entries ∧
        ((c.deleteKey key).1 = false → (c.deleteKey key).2.entries = c.entries) := by
      unfold deleteKey remove
      cases (c.seq? key).bind c.entry? with
      | none => exact ⟨rfl, rfl, List.Subset.refl _, fun _ => rfl⟩
      | some e => exact ⟨rfl, rfl, List.filter_subset_self _, fun hf => nomatch hf⟩
    obtain ⟨hcap, hkeys, hsub, hnone⟩ := ih (c.deleteKey key).2
    refine ⟨hcap.trans hone.1, hkeys.trans hone.2.1,
      List.Subset.trans hsub hone.2.2.1, fun hf => ?_⟩
    have hf : ((c.deleteKey key).1 || ((c.deleteKey key).2.deleteKeys rest).1) = false := hf
    obtain ⟨hfirst, hrest⟩ := Bool.or_eq_false_iff.mp hf
    exact (hnone hrest).trans (hone.2.2.2 hfirst)

theorem Kept.delete (h : c.Kept capacity keysOf) (v : α) :
    (c.delete v).2.Kept capacity keysOf where
  coherent := h.coherent.delete v
  limit := (deleteKeys_spec c (c.keys v)).1.trans h.limit
  keyed := (deleteKeys_spec c (c.keys v)).2.1.trans h.keyed
  labelled e he := h.labelled e ((deleteKeys_spec c (c.keys v)).2.2.1 he)

theorem Kept.size_le (h : c.Kept capacity keysOf) : c.size ≤ max 1 capacity := by
  have hbound := h.coherent.bound
  have hlimit := h.limit
  unfold size
  omega

/-- Every key of a cached value leads to it. -/
theorem Kept.get_of_key (h : c.Kept capacity keysOf) {v : α} (hv : v ∈ c.toList) {key : κ}
    (hk : key ∈ keysOf v) : (c.get key).1 = some v := by
  obtain ⟨e, he, rfl⟩ := List.mem_map.mp hv
  have hlabel : key ∈ e.keys := by
    rw [h.labelled e he, List.mem_eraseDups]
    exact hk
  have howner : (c.seq? key).bind c.entry? = some e := by
    rw [h.coherent.seq?_of_mem he hlabel]
    exact h.coherent.entry?_of_mem he
  unfold Cache.get
  rw [howner]

/-- No two places of the cache share a key. -/
theorem Kept.eq_of_shared_key (h : c.Kept capacity keysOf) {i j : Nat} {v v' : α}
    (hi : c.toList[i]? = some v) (hj : c.toList[j]? = some v') {key : κ} (hk : key ∈ keysOf v)
    (hk' : key ∈ keysOf v') : i = j := by
  have hentry {i : Nat} {v : α} (hi : c.toList[i]? = some v) (hk : key ∈ keysOf v) :
      ∃ e, c.entries[i]? = some e ∧ key ∈ e.keys := by
    rw [toList, List.getElem?_map] at hi
    obtain ⟨e, he, rfl⟩ := Option.map_eq_some_iff.mp hi
    refine ⟨e, he, ?_⟩
    rw [h.labelled e (List.mem_of_getElem? he), List.mem_eraseDups]
    exact hk
  obtain ⟨e, he, hke⟩ := hentry hi hk
  obtain ⟨e', he', hke'⟩ := hentry hj hk'
  have hsame : e = e' :=
    h.coherent.eq_of_key (List.mem_of_getElem? he) (List.mem_of_getElem? he') hke hke'
  have hlt : i < c.entries.length := (List.getElem?_eq_some_iff.mp he).1
  refine (List.getElem?_inj hlt h.coherent.distinct.of_map).mp ?_
  rw [he, he', hsame]

end Cache

/-! ### All caches of a registry -/

namespace Domains

variable {ds : Domains}

theorem cache?_setCache (ds : Domains) (domain : Int) (c : DescriptorCache) (other : Int) :
    (ds.setCache domain c).cache? other = if other = domain then some c else ds.cache? other :=
  lookup_put ds.caches domain other c

/-- A domain has one cache at most; that of the global domain is always there, and no other one is
empty. -/
structure Orderly (ds : Domains) : Prop where
  single : (ds.caches.map Prod.fst).Nodup
  shared : ∃ c, ds.cache? globalDomain = some c
  filled : ∀ domain c, ds.cache? domain = some c → domain ≠ globalDomain → c.entries ≠ []
  kept : ∀ domain c, ds.cache? domain = some c →
    c.Kept (ds.config.capacityFor domain).toNat Descriptor.indexKeys

theorem orderly_ofConfig (config : RegistryConfig) : (ofConfig config).Orderly where
  single := List.nodup_singleton _
  shared := ⟨newCache config globalDomain, rfl⟩
  filled domain c hc hne := by
    have hd := List.mem_singleton.mp (mem_of_lookup hc)
    exact absurd (congrArg Prod.fst hd) hne
  kept domain c hc := by
    cases List.mem_singleton.mp (mem_of_lookup hc)
    exact Cache.kept_empty _ _

theorem Orderly.setCache (h : ds.Orderly) {domain : Int} {c : DescriptorCache}
    (hkept : c.Kept (ds.config.capacityFor domain).toNat Descriptor.indexKeys)
    (hfilled : domain ≠ globalDomain → c.entries ≠ []) : (ds.setCache domain c).Orderly where
  single := nodup_keys_put h.single domain c
  shared := by
    rw [cache?_setCache]
    split
    · exact ⟨c, rfl⟩
    · exact h.shared
  filled other c' hc' hne := by
    rw [cache?_setCache] at hc'
    split at hc'
    · next heq =>
      cases hc'
      exact hfilled (heq ▸ hne)
    · exact h.filled other c' hc' hne
  kept other c' hc' := by
    rw [cache?_setCache] at hc'
    split at hc'
    · next heq =>
      cases hc'
      rw [heq]
      exact hkept
    · exact h.kept other c' hc'

theorem Orderly.erase (h : ds.Orderly) {domain : Int} (hd : domain ≠ globalDomain) :
    (ds.erase domain).Orderly := by
  have hcache {other : Int} {c : DescriptorCache} (hc : (ds.erase domain).cache? other = some c) :
      ds.cache? other = some c := by
    have hne : other ≠ domain := by
      rintro rfl
      rw [show (ds.erase other).cache? other = none from lookup_filter_ne_self ds.caches other] at hc
      cases hc
    rw [← hc]
    exact (lookup_filter_ne (l := ds.caches) hne).symm
  refine ⟨nodup_keys_filter h.single _, ?_, fun other c hc => h.filled other c (hcache hc),
    fun other c hc => h.kept other c (hcache hc)⟩
  obtain ⟨c, hc⟩ := h.shared
  refine ⟨c, ?_⟩
  rw [← hc]
  exact lookup_filter_ne (l := ds.caches) hd.symm

theorem Orderly.lookup (h : ds.Orderly) (domain : Int) (key : String) :
    (ds.lookup domain key).2.Orderly := by
  rcases ds.lookup_cases domain key with heq | ⟨c, hc, heq⟩ <;> rw [heq]
  · exact h
  · refine h.setCache ((h.kept domain c hc).get (Text.lower key)) fun hne hempty => ?_
    have hperm := (h.kept domain c hc).coherent.get_perm (Text.lower key)
    rw [hempty] at hperm
    exact h.filled domain c hc hne hperm.nil_eq.symm

theorem Orderly.home (h : ds.Orderly) (d : Descriptor) :
    (ds.home d).Kept (ds.config.capacityFor d.domain).toNat Descriptor.indexKeys := by
  unfold Domains.home
  cases hc : ds.cache? d.domain with
  | none => exact Cache.kept_empty _ _
  | some c => exact h.kept d.domain c hc

theorem Orderly.register (h : ds.Orderly) {d : Descriptor} {ds' : Domains}
    (hr : ds.register d = .ok ds') : ds'.Orderly := by
  obtain ⟨c, ha, rfl⟩ := register_ok hr
  obtain ⟨hadded, hne⟩ := (h.home d).add ha
  exact h.setCache hadded fun _ => hne

theorem Orderly.unregister (h : ds.Orderly) (d : Descriptor) : (ds.unregister d).2.Orderly := by
  rcases ds.unregister_cases d with heq | ⟨c, hpos, hc, heq | ⟨hleft, heq⟩⟩ <;> rw [heq]
  · exact h
  · refine h.erase ?_
    unfold globalDomain
    omega
  · -- a cache that stays has lost nothing or has something left
    refine h.setCache ((h.kept d.domain c hc).delete d) fun hne hempty => hleft ⟨?_, ?_⟩
    · rw [← Bool.not_eq_false]
      intro hnone
      have hsame := (Cache.deleteKeys_spec c (c.keys d)).2.2.2 hnone
      exact h.filled d.domain c hc hne (hsame.symm.trans hempty)
    · unfold Cache.isEmpty
      rw [hempty]
      rfl

theorem orderly_invariant : Invariant (fun _ => True) Orderly where
  new := orderly_ofConfig
  lookup domain key h := h.lookup domain key
  register _ h hr := h.register hr
  unregister d h := h.unregister d

/-- No cache is that of a negative domain. -/
def NoneBelow (ds : Domains) : Prop := ∀ e ∈ ds.caches, globalDomain ≤ e.1

theorem NoneBelow.setCache (h : ds.NoneBelow) {domain : Int} (hd : globalDomain ≤ domain)
    (c : DescriptorCache) : (ds.setCache domain c).NoneBelow := by
  intro e he
  rcases List.mem_cons.mp he with rfl | he
  · exact hd
  · exact h e (List.mem_filter.mp he).1

/-- As long as no descriptor of a negative domain is registered. -/
theorem noneBelow_invariant : Invariant (fun d => globalDomain ≤ d.domain) NoneBelow where
  new config e he := by
    obtain rfl := List.mem_singleton.mp he
    exact Int.le_refl _
  lookup {ds} domain key h := by
    rcases ds.lookup_cases domain key with heq | ⟨c, hc, heq⟩ <;> rw [heq]
    · exact h
    · exact h.setCache (h _ (mem_of_lookup hc)) _
  register hd h hr := by
    obtain ⟨c, -, rfl⟩ := register_ok hr
    exact h.setCache hd c
  unregister {ds} d h := by
    rcases ds.unregister_cases d with heq | ⟨c, hpos, hc, heq | ⟨-, heq⟩⟩ <;> rw [heq]
    · exact h
    · exact fun e he => h e (List.mem_filter.mp he).1
    · exact h.setCache (h _ (mem_of_lookup hc)) _

/-- What is cached for a domain, as callers see it. -/
structure Served (ds : Domains) (domain : Int) (c : DescriptorCache) : Prop where
  tenant : domain ≠ globalDomain → 1 ≤ domain ∧ c.toList ≠ []
  size_le : c.size ≤ max 1 (ds.config.capacityFor domain).toNat
  /-- No two places share a lower-cased name or path. -/
  unique : ∀ (i j : Nat) (d d' : Descriptor) (key : String), c.toList[i]? = some d → c.toList[j]? = some d' →
    key ∈ d.indexKeys → key ∈ d'.indexKeys → i = j
  /-- The names and paths of a descriptor lead to it. -/
  reached : ∀ d ∈ c.toList, ∀ key, Text.lower key ∈ d.indexKeys →
    (ds.lookup domain key).1 = some d

/-- The keys of a descriptor are its lower-cased name and path, unless they are empty. -/
theorem mem_indexKeys {d : Descriptor} {key : String} :
    key ∈ d.indexKeys ↔ key ≠ "" ∧ (key = Text.lower d.name ∨ key = Text.lower d.path) := by
  unfold Descriptor.indexKeys
  rw [List.mem_eraseDups, List.mem_filter]
  simp [and_comm]

theorem Orderly.served (h : ds.Orderly) (hbelow : ds.NoneBelow) {domain : Int}
    {c : DescriptorCache} (hc : ds.cache? domain = some c) : ds.Served domain c where
  tenant hne := by
    have hle : globalDomain ≤ domain := hbelow _ (mem_of_lookup hc)
    refine ⟨?_, fun hempty => h.filled domain c hc hne (List.map_eq_nil_iff.mp hempty)⟩
    unfold globalDomain at hle hne
    omega
  size_le := (h.kept domain c hc).size_le
  unique _ _ _ _ _ hi hj hk hk' := (h.kept domain c hc).eq_of_shared_key hi hj hk hk'
  reached d hd key hk := by
    unfold Domains.lookup
    rw [hc]
    exact (h.kept domain c hc).get_of_key hd hk

/-! ### Settings -/

theorem config_lookup (ds : Domains) (domain : Int) (key : String) :
    (ds.lookup domain key).2.config = ds.config := by
  rcases ds.lookup_cases domain key with heq | ⟨c, -, heq⟩
  · rw [heq]
  · rw [heq]
    rfl

theorem config_register {ds' : Domains} {d : Descriptor} (hr : ds.register d = .ok ds') :
    ds'.config = ds.config := by
  obtain ⟨c, -, rfl⟩ := register_ok hr
  rfl

theorem config_unregister (ds : Domains) (d : Descriptor) :
    (ds.unregister d).2.config = ds.config := by
  rcases ds.unregister_cases d with heq | ⟨c, -, -, heq | ⟨-, heq⟩⟩ <;> rw [heq] <;> rfl

end Domains

/-! ### Registries -/

namespace Store

variable {σ : Type}

/-- The settings of the registries stay. -/
def SameConfigs (s s' : Store σ) : Prop :=
  s'.domains.map (·.config) = s.domains.map (·.config)

instance : IsPreorder (Store σ) SameConfigs where
  refl _ := rfl
  trans _ _ _ h h' := h'.trans h

theorem sameConfigs_setDomains (s : Store σ) (r : Registry) {ds : Domains}
    (h : ds.config = (s.domainsOf r).config) : s.SameConfigs (s.setDomains r ds) := by
  show (s.domains.set r.domains ds).map (·.config) = _
  cases hd : s.domains[r.domains]? with
  | none => rw [List.set_eq_of_length_le (List.getElem?_eq_none_iff.mp hd)]
  | some old =>
    have hold : ds.config = old.config := by
      rw [h, domainsOf, hd]
      rfl
    obtain ⟨hlt, hget⟩ := List.getElem?_eq_some_iff.mp hd
    rw [List.map_set, hold, ← hget]
    have hbound : r.domains < (s.domains.map (·.config)).length := by simpa
    have hmap : s.domains[r.domains].config = (s.domains.map (·.config))[r.domains] := by
      rw [List.getElem_map]
    rw [hmap, List.set_getElem_self]

theorem steps_sameConfigs : StepsKeep (SameConfigs (σ := σ)) where
  lookup r domain key s := s.sameConfigs_setDomains r (Domains.config_lookup _ _ _)
  register r d s := by
    rw [register_eq]
    cases hr : (s.domainsOf r).register d with
    | ok ds => exact s.sameConfigs_setDomains r (Domains.config_register hr)
    | error e =>
      dsimp only
      split <;> exact rfl
  unregister r d s := by
    have hsame := s.sameConfigs_setDomains r (Domains.config_unregister (s.domainsOf r) d)
    rw [unregister_eq]
    dsimp only
    split <;> exact hsame
  emit _ _ _ := rfl
  install r resolver s := congrArg (List.map _) (domains_installResolver r resolver s)
  outside _ _ := rfl
  primary id s := congrArg (List.map _) (domains_onFields id _ s)
  add _ _ _ _ _ := rfl

/-- A refused descriptor leaves every cache as it was. -/
theorem domains_of_refused {r : Registry} {d : Descriptor} {s : Store σ} {e : RegistryError}
    (h : (register r d s).1 = .error e) : (register r d s).2.domains = s.domains := by
  rw [register_eq] at h ⊢
  cases hr : (s.domainsOf r).register d with
  | ok ds =>
    rw [hr] at h
    cases h
  | error e =>
    dsimp only
    split <;> rfl

variable [Outside σ]

/-- Whatever is called on registries that started with empty caches, and whatever their resolvers
answer: each registry keeps its settings and a global cache, what it caches for a domain is as
callers expect, and a descriptor that it refuses changes no cache. No dataset is of a negative
domain, so none is handed in (`isPlaced_addDictionary`, `isPlaced_createExtension?`). -/
theorem domain_caches_stay_orderly (configs : List RegistryConfig) (calls : List RegistryCall)
    (hcalls : ∀ r d, RegistryCall.register r d ∈ calls → 0 ≤ d.domain) (s : Store σ) :
    let s' := after call calls (s.renew configs)
    s'.domains.map (·.config) = configs ∧
      (∀ ds ∈ s'.domains, (ds.caches.map Prod.fst).Nodup ∧ (∃ c, ds.cache? globalDomain = some c) ∧
        ∀ domain c, ds.cache? domain = some c → ds.Served domain c) ∧
      ∀ r d e, (register r d s').1 = .error e → (register r d s').2.domains = s'.domains := by
  intro s'
  have horderly : Each Domains.Orderly s' :=
    after_each Domains.orderly_invariant (fun _ _ => trivial) (fun _ _ _ _ _ => trivial) configs s
  have hbelow : Each Domains.NoneBelow s' := by
    refine after_each Domains.noneBelow_invariant (fun d hd => Int.le_of_lt hd) ?_ configs s
    rintro c hc r d rfl
    exact hcalls r d hc
  refine ⟨?_, ?_, fun r d e he => domains_of_refused he⟩
  · have hsame : SameConfigs (s.renew configs) s' :=
      after_keeps (R := SameConfigs) steps_sameConfigs.call calls _
    refine hsame.trans ?_
    show (configs.map Domains.ofConfig).map (·.config) = configs
    rw [List.map_map]
    exact List.map_id' configs
  · intro ds hds
    exact ⟨(horderly ds hds).single, (horderly ds hds).shared,
      fun domain c hc => (horderly ds hds).served (hbelow ds hds) hc⟩

/-! ### A run -/

namespace SmallRegistry

/-- One descriptor for each domain; a backend knows a dictionary of the seventh. -/
def config : RegistryConfig := { domainCapacity := 0, globalCapacity := 1 }

def registry : Registry := { Registry.default with link := some ⟨0, 0⟩ }

def invoices (domain : Int) : Descriptor :=
  { id := 0, kind := .dictionary, domain, name := "Invoices", path := "billing/invoices" }

def contacts (domain : Int) : Descriptor :=
  { id := 1, kind := .dictionary, domain, name := "contacts", path := "CONTACTS" }

def nameless : Descriptor := { id := 2, kind := .dictionary, domain := 9, name := "", path := "" }

def backend : Backend := ({} : Backend).putDictionary 7 "orders" (invoices 7)

def outset : Store Directory := { outside := { backends := [backend] } }

/-- Two global dictionaries for one place, one that a resolver brings and another in its place, and
one without a name. The eighth domain loses what it has. -/
def calls : List RegistryCall :=
  [.register registry (invoices 0), .register registry (contacts 0),
    .getDictionary registry 7 "Orders", .register registry (contacts 7),
    .register registry (invoices 8), .invalidate registry 8 "INVOICES",
    .register registry nameless, .lookup registry 7 "Contacts"]

def final : Store Directory := after call calls (outset.renew [config])

theorem final_orderly :
    final.domains.map (fun ds => ds.caches.map fun e => (e.1, e.2.toList.map (·.path))) =
      [[(7, ["CONTACTS"]), (0, ["CONTACTS"])]] ∧
    (∀ r d, RegistryCall.register r d ∈ calls → 0 ≤ d.domain) ∧
    final.domains.map (·.config) = [config] ∧
    (∀ ds ∈ final.domains, (ds.caches.map Prod.fst).Nodup ∧
      (∃ c, ds.cache? globalDomain = some c) ∧
      ∀ domain c, ds.cache? domain = some c → ds.Served domain c) ∧
    ∀ r d e, (register r d final).1 = .error e →
      (register r d final).2.domains = final.domains := by
  have hcalls : ∀ r d, RegistryCall.register r d ∈ calls → 0 ≤ d.domain := by
    intro r d hm
    simp only [calls, List.mem_cons, RegistryCall.register.injEq, reduceCtorEq, false_or,
      List.not_mem_nil, or_false] at hm
    rcases hm with ⟨-, rfl⟩ | ⟨-, rfl⟩ | ⟨-, rfl⟩ | ⟨-, rfl⟩ | ⟨-, rfl⟩ <;> decide
  refine ⟨by decide +kernel, hcalls, ?_⟩
  unfold final
  exact domain_caches_stay_orderly [config] calls hcalls outset

end SmallRegistry

end Store

end TenantSchema
