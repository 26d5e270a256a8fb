import TenantSchema.Proofs.CallEffects
import TenantSchema.Proofs.LowerCase
import TenantSchema.Proofs.RegistryEvents

/-!
# Reading what was registered

A descriptor that has just been registered is in the cache of its domain, whatever it replaced or
displaced there, and each of its keys leads to it. So a search with one of these keys ends in that
cache, and the resolver is not asked. A global dictionary is found likewise from every domain that
has no dictionary of its own under the key; extensions under the key do not hide it.
-/

namespace TenantSchema

/-! ### One cache -/

namespace Cache

variable {κ α : Type} [DecidableEq κ] {capacity : Nat} {keysOf : α → List κ} {c c' : Cache κ α}
  {v : α} {key : κ}

/-- Room is made before a value is appended, so that it is not the one to go. -/
theorem Coherent.mem_add (h : c.Coherent) (ha : c.add v = .ok c') : v ∈ c'.toList := by
  obtain ⟨-, ho⟩ | ⟨-, -, ho⟩ | ⟨e, -, -, -, ho⟩ | ⟨-, ho⟩ := h.add_cases v <;> rw [ha] at ho
  · cases ho
  · cases ho
    simp [toList, Cache.append, push]
  · cases ho
    simp [toList, Cache.replace, push, unindex]
  · cases ho

/-- What a key reaches is there, and has the key. -/
theorem Kept.key_of_get (h : c.Kept capacity keysOf) (hv : (c.get key).1 = some v) :
    v ∈ c.toList ∧ key ∈ keysOf v := by
  unfold Cache.get at hv
  split at hv
  · next e ho =>
    cases hv
    obtain ⟨he, hk⟩ := h.coherent.owner_some ho
    rw [h.labelled e he, List.mem_eraseDups] at hk
    exact ⟨List.mem_map_of_mem he, hk⟩
  · cases hv

end Cache

/-! ### The caches of a registry -/

namespace Domains

variable {ds ds' : Domains} {d : Descriptor} {domain : Int} {key : String}

theorem Orderly.mem_cached_register (h : ds.Orderly) (hr : ds.register d = .ok ds') :
    d ∈ ds'.cached d.domain := by
  obtain ⟨c, ha, rfl⟩ := register_ok hr
  rw [cached_setCache, if_pos rfl]
  exact (h.home d).coherent.mem_add ha

theorem exists_cache_of_mem_cached (h : d ∈ ds.cached domain) :
    ∃ c, ds.cache? domain = some c ∧ d ∈ c.toList := by
  unfold cached at h
  cases hc : ds.cache? domain with
  | none =>
    rw [hc] at h
    cases h
  | some c =>
    rw [hc] at h
    exact ⟨c, rfl, h⟩

/-- Looking a key up finds just the cached descriptor that has it in lower case. -/
theorem Orderly.lookup_eq_some_iff (h : ds.Orderly) :
    (ds.lookup domain key).1 = some d ↔ d ∈ ds.cached domain ∧ Text.lower key ∈ d.indexKeys := by
  constructor
  · intro hfound
    rcases ds.lookup_cases domain key with heq | ⟨c, hc, heq⟩
    · rw [heq] at hfound
      cases hfound
    · rw [heq] at hfound
      rw [cached_of_cache? hc]
      exact (h.kept domain c hc).key_of_get hfound
  · rintro ⟨hd, hk⟩
    obtain ⟨c, hc, hd⟩ := exists_cache_of_mem_cached hd
    unfold Domains.lookup
    rw [hc]
    exact (h.kept domain c hc).get_of_key hd hk

end Domains

/-! ### Where datasets can be -/

/-- Dictionaries are global or of a tenant, extensions of a tenant. -/
def Descriptor.IsPlaced (d : Descriptor) : Prop :=
  match d.kind with
  | .dictionary => globalDomain ≤ d.domain
  | .extension => globalDomain < d.domain

namespace Store

variable {σ : Type} {s s₁ : Store σ} {r : Registry} {d : Descriptor} {domain holder : Int}
  {key path : String}

/-! ### Looking things up -/

theorem cached_eq_domainsOf (r : Registry) (domain : Int) (s : Store σ) :
    s.cached r.domains domain = (s.domainsOf r).cached domain := by
  unfold Store.cached domainsOf
  cases s.domains[r.domains]? with
  | some ds => rfl
  | none =>
    -- caches that are not there hold as little as new ones
    have hnew : (Domains.ofConfig {}).cached domain = [] := by
      unfold Domains.cached
      cases hc : (Domains.ofConfig {}).cache? domain with
      | none => rfl
      | some c =>
        obtain ⟨-, rfl⟩ := Prod.mk.inj (List.mem_singleton.mp (mem_of_lookup hc))
        rfl
    exact hnew.symm

theorem lookup_eq_some_iff (hs : Each Domains.Orderly s) :
    (lookup r domain key s).1 = some d ↔
      d ∈ s.cached r.domains domain ∧ Text.lower key ∈ d.indexKeys := by
  rw [cached_eq_domainsOf]
  exact (hs.domainsOf Domains.orderly_invariant r).lookup_eq_some_iff

/-- A dictionary of the first domain is found there, and no other is looked at. -/
theorem cachedDictionary_own (hs : Each Domains.Orderly s) (hkind : d.kind = .dictionary)
    (hd : d ∈ s.cached r.domains domain) (hk : Text.lower key ∈ d.indexKeys) (rest : List Int) :
    cachedDictionary r key (domain :: rest) s = (some (domain, d), (lookup r domain key s).2) := by
  have hfound : (lookup r domain key s).1 = some d := (lookup_eq_some_iff hs).mpr ⟨hd, hk⟩
  unfold cachedDictionary
  rw [bind_apply, hfound, Option.filter_some, if_pos (decide_eq_true hkind)]
  rfl

/-- A domain without a dictionary under the key is passed over, even if it has an extension there. -/
theorem cachedDictionary_none (hs : Each Domains.Orderly s)
    (hnone : ∀ d ∈ s.cached r.domains domain, Text.lower key ∈ d.indexKeys → d.kind ≠ .dictionary)
    (rest : List Int) : cachedDictionary r key (domain :: rest) s =
      cachedDictionary r key rest (lookup r domain key s).2 := by
  have hfound : (lookup r domain key s).1.filter (·.kind = .dictionary) = none := by
    rw [Option.filter_eq_none_iff]
    intro d hd
    obtain ⟨hcached, hk⟩ := (lookup_eq_some_iff hs).mp hd
    simpa using hnone d hcached hk
  conv_lhs => unfold cachedDictionary
  rw [bind_apply, hfound]

/-! ### Searches that end in a cache -/

section Searches

variable [Outside σ]

theorem getDictionary_of_cached (hpath : Text.lower path ≠ "")
    (h : cachedDictionary r (Text.lower path) (visibleDomains (max domain globalDomain)) s =
      (some (holder, d), s₁)) :
    getDictionary r domain path s = (.ok (some d), (emit r (.cacheHit holder) s₁).2) := by
  unfold getDictionary
  rw [if_neg (by simpa using hpath), bind_apply, h]
  rfl

theorem getExtension_of_cached (hdomain : globalDomain < domain) (hpath : Text.lower path ≠ "")
    (hkind : d.kind = .extension) (h : lookup r domain (Text.lower path) s = (some d, s₁)) :
    getExtension r domain path s = (.ok (some d), (emit r (.cacheHit domain) s₁).2) := by
  have hguard : ¬(domain < 1 ∨ (Text.lower path).isEmpty = true) :=
    not_or.mpr ⟨Int.not_lt.mpr hdomain, by simpa using hpath⟩
  unfold getExtension
  rw [if_neg hguard, bind_apply, h]
  dsimp only
  rw [Option.filter_some, if_pos (decide_eq_true hkind)]
  rfl

/-- Whoever searches for the descriptor by this key is given it from the caches: they are looked up,
the hit is told, and that is all, whatever the resolver would answer. -/
structure ReadsBack (r : Registry) (d : Descriptor) (key : String) (s : Store σ) : Prop where
  lookup : (lookup r d.domain key s).1 = some d
  dictionary : d.kind = .dictionary → getDictionary r d.domain key s =
    (.ok (some d), (emit r (.cacheHit d.domain)
      (cachedDictionary r (Text.lower key) (visibleDomains d.domain) s).2).2)
  extension : d.kind = .extension → getExtension r d.domain key s =
    (.ok (some d), (emit r (.cacheHit d.domain) (Store.lookup r d.domain (Text.lower key) s).2).2)
  /-- A global dictionary is seen by every domain without a dictionary of its own under the key. -/
  shared : d.kind = .dictionary → d.domain = globalDomain → ∀ domain, (globalDomain < domain →
      ∀ d' ∈ s.cached r.domains domain, Text.lower key ∈ d'.indexKeys → d'.kind ≠ .dictionary) →
    getDictionary r domain key s = (.ok (some d), (emit r (.cacheHit globalDomain)
      (cachedDictionary r (Text.lower key) (visibleDomains (max domain globalDomain)) s).2).2)

theorem visibleDomains_head (domain : Int) : ∃ rest, visibleDomains domain = domain :: rest := by
  unfold visibleDomains
  split <;> exact ⟨_, rfl⟩

theorem readsBack_of_cached (hs : Each Domains.Orderly s) (hplace : d.IsPlaced)
    (hd : d ∈ s.cached r.domains d.domain) (hk : Text.lower key ∈ d.indexKeys) :
    ReadsBack r d key s := by
  have hpath : Text.lower key ≠ "" := (Domains.mem_indexKeys.mp hk).1
  have hagain : Text.lower (Text.lower key) ∈ d.indexKeys := by rwa [Text.lower_lower]
  have hown (hkind : d.kind = .dictionary) : cachedDictionary r (Text.lower key)
      (visibleDomains d.domain) s =
        (some (d.domain, d), (lookup r d.domain (Text.lower key) s).2) := by
    obtain ⟨rest, hvisible⟩ := visibleDomains_head d.domain
    rw [hvisible]
    exact cachedDictionary_own hs hkind hd hagain rest
  unfold Descriptor.IsPlaced at hplace
  refine ⟨(lookup_eq_some_iff hs).mpr ⟨hd, hk⟩, fun hkind => ?_, fun hkind => ?_,
    fun hkind hglobal domain hnone => ?_⟩
  · rw [hkind] at hplace
    have hmax : max d.domain globalDomain = d.domain := Int.max_eq_left hplace
    refine getDictionary_of_cached hpath ?_
    rw [hmax, hown hkind]
  · rw [hkind] at hplace
    have hfound : (lookup r d.domain (Text.lower key) s).1 = some d :=
      (lookup_eq_some_iff hs).mpr ⟨hd, hagain⟩
    exact getExtension_of_cached hplace hpath hkind (Prod.ext hfound rfl)
  · refine getDictionary_of_cached hpath ?_
    by_cases hdomain : globalDomain < domain
    · -- the domain itself is passed over, and looking there leaves the global cache as it was
      have hmax : max domain globalDomain = domain := Int.max_eq_left (Int.le_of_lt hdomain)
      have hvisible : visibleDomains domain = [domain, globalDomain] :=
        if_neg (Int.ne_of_gt hdomain)
      have hlooked := lookup_spares (p := fun _ _ => True) r domain (Text.lower key) s hs
      have hcached : d ∈ (lookup r domain (Text.lower key) s).2.cached r.domains globalDomain :=
        (hlooked.2 r.domains globalDomain trivial).mem_iff.mpr (hglobal ▸ hd)
      have hpassed (d' : Descriptor) (hd' : d' ∈ s.cached r.domains domain)
          (hk' : Text.lower (Text.lower key) ∈ d'.indexKeys) : d'.kind ≠ .dictionary :=
        hnone hdomain d' hd' (Text.lower_lower key ▸ hk')
      rw [hmax, hvisible, cachedDictionary_none hs hpassed,
        cachedDictionary_own hlooked.1 hkind hcached hagain]
    · have hmax : max domain globalDomain = d.domain := by
        rw [hglobal]
        exact Int.max_eq_right (Int.not_lt.mp hdomain)
      rw [hmax, hown hkind, hglobal]

end Searches

/-! ### What a search answers

Only datasets of the kind that is searched for.
-/

section Answers

variable {kind : DatasetKind} {found : Option (Int × Descriptor)} {q : Question}

theorem kind_of_cachedDictionary {domains : List Int} {e : Int × Descriptor}
    (h : (cachedDictionary r key domains s).1 = some e) : e.2.kind = .dictionary := by
  induction domains generalizing s with
  | nil => cases h
  | cons domain rest ih =>
    unfold cachedDictionary at h
    rw [bind_apply] at h
    cases hf : (lookup r domain key s).1.filter (·.kind = .dictionary) with
    | some d =>
      rw [hf] at h
      cases h
      simpa using (Option.filter_eq_some_iff.mp hf).2
    | none =>
      rw [hf] at h
      exact ih h

theorem found_of_settle (h : (settle r kind domain key found s).1 = .inl (some d)) :
    ∃ holder, found = some (holder, d) := by
  unfold settle at h
  cases found with
  | some e =>
    cases h
    exact ⟨e.1, rfl⟩
  | none =>
    dsimp only at h
    rw [bind_apply] at h
    cases hq : Question.of? r kind domain key <;> rw [hq] at h <;> cases h

theorem kind_of_seek (h : (seek r kind domain path s).1 = .inl (some d)) : d.kind = kind := by
  unfold seek at h
  cases kind with
  | dictionary =>
    dsimp only at h
    split at h
    · cases h
    · rw [bind_apply] at h
      obtain ⟨holder, hfound⟩ := found_of_settle h
      exact kind_of_cachedDictionary hfound
  | extension =>
    dsimp only at h
    split at h
    · cases h
    · rw [bind_apply] at h
      obtain ⟨holder, hfound⟩ := found_of_settle h
      obtain ⟨d', hd', heq⟩ := Option.map_eq_some_iff.mp hfound
      cases heq
      simpa using (Option.filter_eq_some_iff.mp hd').2

theorem Question.answer_of_conclude {answer : Except Error (Option Descriptor)}
    (h : (q.conclude answer s).1 = .ok (some d)) : answer = .ok (some d) := by
  rcases answer with e | _ | d'
  · cases h
  · cases h
  · cases hd : q.admits d' with
    | true =>
      rw [Question.conclude_admitted hd] at h
      cases h
      rfl
    | false =>
      rw [Question.conclude_refused hd] at h
      cases h

variable [Outside σ]

/-- An extension that is only described becomes one. -/
theorem kind_of_acceptExtension {reply : ExtensionReply}
    (h : (acceptExtension domain reply s).1 = some d) : d.kind = .extension := by
  cases reply with
  | known known =>
    obtain ⟨rfl, hkind⟩ := accepted_known domain (.known known) s d h known rfl
    exact hkind
  | fresh spec via =>
    cases h
    rfl

theorem Question.kind_of_ask (h : (q.ask s).1 = .ok (some d)) : d.kind = q.kind := by
  unfold Question.ask at h
  cases hkind : q.kind with
  | dictionary =>
    rw [hkind] at h
    dsimp only at h
    rw [bind_apply] at h
    cases hanswer : (onOutside (Outside.dictionary q.link.resolver q.domain q.key) s).1 with
    | error e =>
      rw [hanswer] at h
      cases h
    | ok found =>
      rw [hanswer] at h
      have hfound : found.filter (·.kind = .dictionary) = some d := Except.ok.inj h
      simpa using (Option.filter_eq_some_iff.mp hfound).2
  | extension =>
    rw [hkind] at h
    dsimp only at h
    rw [bind_apply] at h
    rcases hanswer : (onOutside (Outside.extension q.link.resolver q.domain q.key) s).1
      with e | _ | reply
    · rw [hanswer] at h
      cases h
    · rw [hanswer] at h
      cases h
    · rw [hanswer] at h
      dsimp only at h
      rw [bind_apply] at h
      exact kind_of_acceptExtension (Except.ok.inj h)

theorem kind_of_search (h : (search r kind domain path s).1 = .ok (some d)) : d.kind = kind := by
  unfold search at h
  rw [bind_apply] at h
  cases hseek : (seek r kind domain path s).1 with
  | inl found =>
    rw [hseek] at h
    cases h
    exact kind_of_seek hseek
  | inr q =>
    rw [hseek] at h
    rw [← (question_of_seek hseek).2.1]
    exact Question.kind_of_ask (Question.answer_of_conclude h)

end Answers

/-! ### What is created and what is registered -/

theorem isPlaced_addDictionary (domain : Int) (spec : DatasetSpec) (via : Via) (s : Store σ) :
    (addDictionary domain spec via s).1.IsPlaced := Int.le_max_right domain 0

theorem isPlaced_addExtension (hdomain : globalDomain < domain) (spec : DatasetSpec) (via : Via)
    (found : Except DatasetError Base) (s : Store σ) :
    (addExtension domain spec via found s).1.IsPlaced :=
  Int.lt_of_lt_of_le hdomain (Int.le_max_left domain 0)

/-- Nothing is created that extends the global domain. -/
theorem isPlaced_createExtension? [Outside σ] {spec : DatasetSpec} {via : Via}
    {base : Option Descriptor} (h : (createExtension? domain spec via base s).1 = some d) :
    d.IsPlaced := by
  unfold createExtension? at h
  split at h
  · cases h
  · next hdomain =>
    have hdomain : globalDomain < domain := Int.not_lt.mp hdomain
    cases base with
    | some base =>
      cases h
      exact isPlaced_addExtension hdomain spec .default _ _
    | none =>
      cases h
      exact isPlaced_addExtension hdomain spec via _ _

theorem mem_cached_of_registered (hs : Each Domains.Orderly s) (hr : r.domains < s.domains.length)
    (h : (register r d s).1 = .ok ()) : d ∈ (register r d s).2.cached r.domains d.domain := by
  rw [register_eq] at h ⊢
  cases hregister : (s.domainsOf r).register d with
  | error e =>
    rw [hregister] at h
    cases h
  | ok ds =>
    have hset : (s.setDomains r ds).cached r.domains d.domain = ds.cached d.domain := by
      unfold Store.cached setDomains
      rw [List.getElem?_set_self hr]
      rfl
    show d ∈ (s.setDomains r ds).cached r.domains d.domain
    rw [hset]
    exact (hs.domainsOf Domains.orderly_invariant r).mem_cached_register hregister

/-! ### What callers can rely on -/

section Reads

variable [Outside σ]

/-- What the next call leaves in a cache is read back, through any handle on the same caches. -/
structure ReadsWrites (s : Store σ) : Prop where
  registered : ∀ r d, r.domains < s.domains.length → d.IsPlaced → (register r d s).1 = .ok () →
    ∀ r' key, r'.domains = r.domains → Text.lower key ∈ d.indexKeys →
      ReadsBack r' d key (register r d s).2
  /-- A resolver that knows a dictionary by one of its keys is asked for it once, unless the
  dictionary could not be cached. -/
  dictionary : ∀ r domain path d, d.IsPlaced →
    (getDictionary r domain path s).1 = .ok (some d) → d.domain = domain →
    d ∈ (getDictionary r domain path s).2.cached r.domains domain → Text.lower path ∈ d.indexKeys →
    ∀ r', r'.domains = r.domains → d.kind = .dictionary ∧
      ReadsBack r' d path (getDictionary r domain path s).2
  extension : ∀ r domain path d, d.IsPlaced →
    (getExtension r domain path s).1 = .ok (some d) → d.domain = domain →
    d ∈ (getExtension r domain path s).2.cached r.domains domain → Text.lower path ∈ d.indexKeys →
    ∀ r', r'.domains = r.domains → d.kind = .extension ∧
      ReadsBack r' d path (getExtension r domain path s).2

/-- Whatever has been called on registries that started with empty caches. -/
theorem calls_read_writes (configs : List RegistryConfig) (calls : List RegistryCall)
    (s : Store σ) : (after call calls (s.renew configs)).ReadsWrites := by
  have horderly : Each Domains.Orderly (after call calls (s.renew configs)) :=
    after_each Domains.orderly_invariant (fun _ _ => trivial) (fun _ _ _ _ _ => trivial) configs s
  generalize after call calls (s.renew configs) = s at horderly
  have hsteps : StepsKeep (Carries (Each (σ := σ) Domains.Orderly)) :=
    steps_each Domains.orderly_invariant fun _ => trivial
  refine ⟨?_, ?_, ?_⟩
  · intro r d hr hplace hregister r' key hr' hk
    have hcached := mem_cached_of_registered horderly hr hregister
    exact readsBack_of_cached (hsteps.register r d s horderly) hplace (hr' ▸ hcached) hk
  · intro r domain path d hplace hanswer hdomain hcached hk r' hr'
    subst hdomain
    have hlater := hsteps.toLookupSteps.getDictionary hsteps.register r d.domain path s horderly
    rw [getDictionary_eq] at hanswer
    exact ⟨kind_of_search hanswer, readsBack_of_cached hlater hplace (hr' ▸ hcached) hk⟩
  · intro r domain path d hplace hanswer hdomain hcached hk r' hr'
    subst hdomain
    have hlater := hsteps.toLookupSteps.getExtension hsteps.register hsteps.newExtension
      r d.domain path s horderly
    rw [getExtension_eq] at hanswer
    exact ⟨kind_of_search hanswer, readsBack_of_cached hlater hplace (hr' ▸ hcached) hk⟩

end Reads

/-! ### A run -/

namespace SmallRegistry

/-- A backend that knows a dictionary of the seventh domain by its name. -/
def supplied : Store Directory :=
  { outside := { backends := [({} : Backend).putDictionary 7 "invoices" (invoices 7)] } }

/-- Both caches are full. -/
def full : Store Directory :=
  after call [.register registry (contacts 0), .register registry (contacts 7)]
    (supplied.renew [config])

/-- A global dictionary that displaces the only one there, and is seen by the seventh domain; one of
the seventh domain that the backend supplies. -/
theorem full_reads_writes : full.ReadsWrites ∧
    (register registry (invoices 0) full).1 = .ok () ∧
    ReadsBack registry (invoices 0) "INVOICES" (register registry (invoices 0) full).2 ∧
    (getDictionary registry 7 "Invoices" full).1 = .ok (some (invoices 7)) ∧
    ReadsBack registry (invoices 7) "Invoices" (getDictionary registry 7 "Invoices" full).2 := by
  have hreads : full.ReadsWrites := calls_read_writes [config] _ supplied
  have hregistered : (register registry (invoices 0) full).1 = .ok () := by decide +kernel
  have hanswer : (getDictionary registry 7 "Invoices" full).1 = .ok (some (invoices 7)) := by
    decide +kernel
  refine ⟨hreads, hregistered, ?_, hanswer, ?_⟩
  · exact hreads.registered registry (invoices 0) (by decide +kernel) (Int.le_refl 0) hregistered
      registry "INVOICES" rfl (by decide +kernel)
  · have hplace : (invoices 7).IsPlaced := show globalDomain ≤ 7 by decide
    exact (hreads.dictionary registry 7 "Invoices" (invoices 7) hplace hanswer rfl
      (by decide +kernel) (by decide +kernel) registry rfl).2

end SmallRegistry

end Store

end TenantSchema
