import TenantSchema.Proofs.Isolation
import TenantSchema.Proofs.RecencyList
import TenantSchema.Proofs.RegisteredReads

/-!
# Invalidating a key

To invalidate a key is to look it up and to drop what was found by all of its keys. No two
descriptors of a cache share a key, so dropping one by its keys drops no other one, and looking it up
before has only moved this very descriptor. Main statement: the descriptor that the key reaches is
lost, its cache with it if it was the last one, and everything else stays, in its order.
-/

namespace TenantSchema

/-! ### One cache -/

namespace Cache

variable {κ α : Type} [DecidableEq κ] {capacity : Nat} {keysOf : α → List κ} {c : Cache κ α}
  {v : α} {key : κ}

/-- Values under disjoint sets of keys are distinct. -/
theorem Kept.nodup_toList (h : c.Kept capacity keysOf) : c.toList.Nodup := by
  refine List.Nodup.map_on (fun e he e' he' hv => ?_) h.coherent.distinct.of_map
  obtain ⟨key, hk⟩ := List.exists_mem_of_ne_nil _ (h.coherent.keyed e he).1
  have hkeys : e.keys = e'.keys := by rw [h.labelled e he, h.labelled e' he', hv]
  exact h.coherent.eq_of_key he he' hk (hkeys ▸ hk)

/-- The keys of a value touch its own entry only. -/
theorem Kept.touches_iff (h : c.Kept capacity keysOf) (hv : v ∈ c.toList) {e : CacheEntry κ α}
    (he : e ∈ c.entries) : RecencyList.touches (c.keys v) e.pair = true ↔ e.value = v := by
  have hkeys : c.keys v = (keysOf v).eraseDups := by rw [keys, h.keyed]
  obtain ⟨e₀, he₀, rfl⟩ := List.mem_map.mp hv
  rw [hkeys, ← h.labelled e₀ he₀]
  have htouch : RecencyList.touches e₀.keys e.pair = true ↔ ∃ key ∈ e₀.keys, key ∈ e.keys := by
    simp [RecencyList.touches, CacheEntry.owns_pair]
  rw [htouch]
  constructor
  · rintro ⟨key, hk₀, hk⟩
    rw [h.coherent.eq_of_key he he₀ hk hk₀]
  · intro heq
    obtain ⟨key, hk₀⟩ := List.exists_mem_of_ne_nil _ (h.coherent.keyed e₀ he₀).1
    refine ⟨key, hk₀, ?_⟩
    rw [h.labelled e he, heq, ← h.labelled e₀ he₀]
    exact hk₀

variable [DecidableEq α]

theorem Kept.erase_toList (h : c.Kept capacity keysOf) (v : α) :
    c.toList.erase v = (c.entries.filter (·.value ≠ v)).map (·.value) := by
  rw [h.nodup_toList.erase_eq_filter, toList, List.filter_map]
  refine congrArg _ (List.filter_congr fun e _ => ?_)
  rw [Bool.eq_iff_iff]
  simp

theorem Kept.toList_delete (h : c.Kept capacity keysOf) (hv : v ∈ c.toList) :
    (c.delete v).1 = true ∧ (c.delete v).2.toList = c.toList.erase v := by
  obtain ⟨hany, hview⟩ := h.coherent.view_deleteKeys (c.keys v)
  constructor
  · obtain ⟨e, he, hev⟩ := List.mem_map.mp hv
    rw [Cache.delete, hany, List.any_eq_true]
    exact ⟨e.pair, List.mem_map_of_mem he, (h.touches_iff hv he).mpr hev⟩
  · have hentries : (c.delete v).2.entries.map (·.pair) =
        (c.entries.filter (·.value ≠ v)).map (·.pair) := by
      have hfilter := (congrArg RecencyList.entries hview).trans (c.filter_view _)
      refine hfilter.trans (congrArg _ (List.filter_congr fun e he => ?_))
      rw [Function.comp_apply, Bool.eq_iff_iff, Bool.not_eq_true', ← Bool.not_eq_true,
        h.touches_iff hv he, decide_eq_true_iff]
    have hvalues := congrArg (List.map Prod.snd) hentries
    rw [List.map_map, List.map_map] at hvalues
    rw [h.erase_toList]
    exact hvalues

/-- Looking a value up moves no other one. -/
theorem Kept.erase_toList_get (h : c.Kept capacity keysOf) (hv : (c.get key).1 = some v) :
    (c.get key).2.toList.erase v = c.toList.erase v := by
  rw [(h.get key).erase_toList, h.erase_toList]
  unfold Cache.get at hv ⊢
  cases ho : (c.seq? key).bind c.entry? with
  | none => rfl
  | some e =>
    rw [ho] at hv
    obtain ⟨he, -⟩ := h.coherent.owner_some ho
    have hev : e.value = v := Option.some.inj hv
    have hfilter : (c.drop e.seq).entries.filter (·.value ≠ v) =
        c.entries.filter (·.value ≠ v) := by
      rw [drop, List.filter_filter]
      refine List.filter_congr fun e' he' => ?_
      by_cases hs : e'.seq = e.seq
      · simp [h.coherent.eq_of_seq he' he hs, hev]
      · simp [hs]
    show (((c.drop e.seq).entries ++ [e]).filter (·.value ≠ v)).map (·.value) = _
    rw [List.filter_append, hfilter]
    simp [hev]

end Cache

/-! ### The caches of a registry -/

namespace Domains

variable {ds : Domains} {domain : Int} {key : String} {x : Descriptor}

theorem cached_erase_self (ds : Domains) (domain : Int) :
    (ds.erase domain).cached domain = [] := by
  unfold cached
  rw [show (ds.erase domain).cache? domain = none from lookup_filter_ne_self ds.caches domain]
  rfl

theorem cache?_erase_eq_none (ds : Domains) (domain e : Int) :
    (ds.erase domain).cache? e = none ↔ ds.cache? e = none ∨ e = domain := by
  by_cases he : e = domain
  · subst he
    simp [show (ds.erase e).cache? e = none from lookup_filter_ne_self ds.caches e]
  · simp [show (ds.erase domain).cache? e = ds.cache? e from lookup_filter_ne he, he]

/-- A domain that has a cache can be given another one. -/
theorem cache?_setCache_eq_none {c c' : DescriptorCache} (hc : ds.cache? domain = some c) (e : Int) :
    (ds.setCache domain c').cache? e = none ↔ ds.cache? e = none := by
  rw [cache?_setCache]
  split
  · next he => simp [he, hc]
  · rfl

theorem Orderly.nodup_cached (h : ds.Orderly) (domain : Int) : (ds.cached domain).Nodup := by
  unfold cached
  cases hc : ds.cache? domain with
  | none => exact List.nodup_nil
  | some c => exact (h.kept domain c hc).nodup_toList

/-- What is dropped takes its cache with it if it was alone there. -/
theorem Orderly.unregister_cached (h : ds.Orderly) {c : DescriptorCache} (hpos : 1 ≤ x.domain)
    (hc : ds.cache? x.domain = some c) (hx : x ∈ c.toList) :
    ds.unregister x =
      (true, if c.toList = [x] then ds.erase x.domain else ds.setCache x.domain (c.delete x).2) := by
  obtain ⟨hremoved, hleft⟩ := (h.kept _ c hc).toList_delete hx
  have hempty : (c.delete x).2.isEmpty = true ↔ c.toList = [x] := by
    have htoList : (c.delete x).2.isEmpty = true ↔ (c.delete x).2.toList = [] := by
      rw [Cache.isEmpty, List.isEmpty_iff, Cache.toList, List.map_eq_nil_iff]
    rw [htoList, hleft]
    constructor
    · intro hnone
      have hperm := List.perm_cons_erase hx
      rw [hnone] at hperm
      exact List.perm_singleton.mp hperm
    · intro hone
      rw [hone]
      simp
  unfold Domains.unregister
  rw [if_neg (Int.not_lt.mpr hpos), hc]
  dsimp only
  rw [hremoved, Bool.true_and]
  by_cases hone : c.toList = [x]
  · rw [if_pos hone, if_pos (hempty.mpr hone)]
  · rw [if_neg hone, if_neg (mt hempty.mp hone)]

/-- A domain loses a descriptor, and its cache with its last one. -/
structure Loses (domain : Int) (x : Descriptor) (ds ds' : Domains) : Prop where
  cached : ∀ e, ds'.cached e = if e = domain then (ds.cached e).erase x else ds.cached e
  goes : ∀ e, ds'.cache? e = none ↔
    ds.cache? e = none ∨ e = domain ∧ ds.cached domain = [x]

theorem Orderly.loses_unregister (h : ds.Orderly) (hpos : 1 ≤ x.domain)
    (hx : x ∈ ds.cached x.domain) :
    (ds.unregister x).1 = true ∧ Loses x.domain x ds (ds.unregister x).2 := by
  obtain ⟨c, hc, hx⟩ := exists_cache_of_mem_cached hx
  have hcached : ds.cached x.domain = c.toList := cached_of_cache? hc
  have hleft := ((h.kept _ c hc).toList_delete hx).2
  rw [h.unregister_cached hpos hc hx]
  refine ⟨rfl, ?_⟩
  dsimp only
  split
  · next hone =>
    refine ⟨fun e => ?_, fun e => ?_⟩
    · split
      · next he =>
        rw [he, cached_erase_self, hcached, hone]
        simp
      · next he => exact cached_erase ds he
    · simp [cache?_erase_eq_none, hcached, hone]
  · next hone =>
    refine ⟨fun e => ?_, fun e => ?_⟩
    · rw [cached_setCache]
      split
      · next he => rw [he, hcached, hleft]
      · rfl
    · simp [cache?_setCache_eq_none hc, hcached, hone]

/-- Looking up first only moves what is lost then. -/
theorem Orderly.loses_lookup (h : ds.Orderly) (hfound : (ds.lookup domain key).1 = some x)
    {ds' : Domains} (hloses : Loses domain x (ds.lookup domain key).2 ds') :
    Loses domain x ds ds' := by
  rcases ds.lookup_cases domain key with heq | ⟨c, hc, heq⟩
  · rw [heq] at hfound
    cases hfound
  · have hkept := h.kept domain c hc
    rw [heq] at hfound hloses
    dsimp only at hfound hloses
    have hcached : ds.cached domain = c.toList := cached_of_cache? hc
    have hone : (c.get (Text.lower key)).2.toList = [x] ↔ c.toList = [x] := by
      have hperm := (hkept.coherent.get_perm (Text.lower key)).map (·.value)
      constructor
      · exact fun hx => List.perm_singleton.mp (hperm.symm.trans (List.Perm.of_eq hx))
      · exact fun hx => List.perm_singleton.mp (hperm.trans (List.Perm.of_eq hx))
    refine ⟨fun e => ?_, fun e => ?_⟩
    · rw [hloses.cached, cached_setCache]
      split
      · next he => rw [he, hcached, hkept.erase_toList_get hfound]
      · rfl
    · rw [hloses.goes, cache?_setCache_eq_none hc, cached_setCache, if_pos rfl, hcached, hone]

end Domains

/-! ### All registries -/

namespace Store

variable {σ : Type} {s s' : Store σ} {r : Registry} {domain : Int} {key : String} {x : Descriptor}

theorem domainsOf_setDomains (s : Store σ) (r r' : Registry) (ds : Domains) :
    (s.setDomains r ds).domainsOf r' =
      if r'.domains = r.domains ∧ r.domains < s.domains.length then ds else s.domainsOf r' := by
  unfold domainsOf setDomains
  rw [List.getElem?_set]
  by_cases hr : r.domains = r'.domains
  · by_cases hlt : r'.domains < s.domains.length <;> simp [hr, hlt]
  · rw [if_neg hr, if_neg fun h => hr h.1.symm]

theorem setDomains_domainsOf (s : Store σ) (r : Registry) : s.setDomains r (s.domainsOf r) = s := by
  unfold setDomains domainsOf
  cases hd : s.domains[r.domains]? with
  | none => rw [List.set_eq_of_length_le (List.getElem?_eq_none_iff.mp hd)]
  | some ds =>
    obtain ⟨hlt, rfl⟩ := List.getElem?_eq_some_iff.mp hd
    rw [Option.getD_some, List.set_getElem_self]

theorem invalidate_eq (r : Registry) (domain : Int) (key : String) (s : Store σ) :
    invalidate r domain key s =
      match (lookup r domain key s).1 with
      | some d => unregister r d (lookup r domain key s).2
      | none => (false, (lookup r domain key s).2) := by
  unfold invalidate
  rw [bind_apply]
  cases (lookup r domain key s).1 <;> rfl

theorem domain_of_lookup (hs : Each Domains.Isolated s)
    (hfound : (lookup r domain key s).1 = some x) : x.domain = domain :=
  ((hs.domainsOf Domains.isolated_invariant r).lookup domain key).2 x hfound

/-- Where there is nothing to drop, and in the global domain, invalidating is looking up. -/
theorem invalidate_refused (hs : Each Domains.Isolated s)
    (h : domain < 1 ∨ (lookup r domain key s).1 = none) :
    invalidate r domain key s = (false, (lookup r domain key s).2) := by
  rw [invalidate_eq]
  cases hfound : (lookup r domain key s).1 with
  | none => rfl
  | some x =>
    have hx : x.domain = domain := domain_of_lookup hs hfound
    have hlow : x.domain < 1 := by
      rw [hx]
      exact h.resolve_right (by simp [hfound])
    have hkept : ((lookup r domain key s).2.domainsOf r).unregister x =
        (false, (lookup r domain key s).2.domainsOf r) := if_pos hlow
    dsimp only
    rw [unregister_eq]
    dsimp only
    rw [hkept, if_neg Bool.false_ne_true, setDomains_domainsOf]

theorem lt_of_mem_cached {k : Nat} (h : x ∈ s.cached k domain) : k < s.domains.length := by
  by_contra hge
  unfold Store.cached at h
  rw [List.getElem?_eq_none_iff.mpr (Nat.not_lt.mp hge)] at h
  cases h

/-- One registry has lost a descriptor of a domain. -/
structure Loses (r : Registry) (domain : Int) (x : Descriptor) (s s' : Store σ) : Prop where
  own : ∀ r', r'.domains = r.domains →
    Domains.Loses domain x (s.domainsOf r') (s'.domainsOf r')
  others : ∀ r', r'.domains ≠ r.domains → s'.domainsOf r' = s.domainsOf r'

theorem invalidate_found (hs : Each Domains.Orderly s) (his : Each Domains.Isolated s)
    (hpos : 1 ≤ domain) (hfound : (lookup r domain key s).1 = some x) :
    (invalidate r domain key s).1 = true ∧
      Loses r domain x s (invalidate r domain key s).2 := by
  have hcached := ((lookup_eq_some_iff hs).mp hfound).1
  have hlt : r.domains < s.domains.length := lt_of_mem_cached hcached
  have hx : x.domain = domain := domain_of_lookup his hfound
  subst hx
  have horderly := hs.domainsOf Domains.orderly_invariant r
  -- the caches of the registry after the look-up
  let looked := ((s.domainsOf r).lookup x.domain key).2
  have hfound' : ((s.domainsOf r).lookup x.domain key).1 = some x := hfound
  have hmem : x ∈ looked.cached x.domain := by
    rw [(horderly.cached_lookup x.domain key x.domain).mem_iff, ← cached_eq_domainsOf]
    exact hcached
  obtain ⟨hremoved, hloses⟩ := (horderly.lookup x.domain key).loses_unregister hpos hmem
  have hlooked : (s.setDomains r looked).domainsOf r = looked := by
    rw [domainsOf_setDomains, if_pos ⟨rfl, hlt⟩]
  have hdropped : invalidate r x.domain key s =
      (true, (emit r (.unregistered x.domain)
        ((s.setDomains r looked).setDomains r (looked.unregister x).2)).2) := by
    rw [invalidate_eq, hfound]
    show unregister r x (s.setDomains r looked) = _
    rw [unregister_eq]
    dsimp only
    rw [hlooked, hremoved, if_pos rfl]
  rw [hdropped]
  refine ⟨rfl, fun r' hr' => ?_, fun r' hr' => ?_⟩
  · have hbefore : s.domainsOf r' = s.domainsOf r := by rw [domainsOf, hr', domainsOf]
    have hafter : ((s.setDomains r looked).setDomains r (looked.unregister x).2).domainsOf r' =
        (looked.unregister x).2 := by
      rw [domainsOf_setDomains, if_pos ⟨hr', by simpa [setDomains] using hlt⟩]
    show Domains.Loses x.domain x (s.domainsOf r')
      (((s.setDomains r looked).setDomains r (looked.unregister x).2).domainsOf r')
    rw [hbefore, hafter]
    exact horderly.loses_lookup hfound' hloses
  · show ((s.setDomains r looked).setDomains r (looked.unregister x).2).domainsOf r' = _
    rw [domainsOf_setDomains, if_neg fun h => hr' h.1, domainsOf_setDomains,
      if_neg fun h => hr' h.1]

/-! ### What callers can rely on -/

/-- The caches have lost a descriptor of a domain and nothing else. -/
structure Drops (r : Registry) (domain : Int) (x : Descriptor) (s s' : Store σ) : Prop where
  unreachable : ∀ r' key, r'.domains = r.domains → Text.lower key ∈ x.indexKeys →
    (lookup r' domain key s').1 = none
  /-- Everything else is reached by all of its keys, in any domain of any registry. -/
  reachable : ∀ r' e y key, y ∈ s.cached r'.domains e →
    ¬(r'.domains = r.domains ∧ e = domain ∧ y = x) → Text.lower key ∈ y.indexKeys →
    (lookup r' e key s').1 = some y
  order : ∀ k e, s'.cached k e =
    if k = r.domains ∧ e = domain then (s.cached k e).erase x else s.cached k e
  /-- Only the cache of that domain can go, and it does with its last descriptor. -/
  goes : ∀ r' e, (s'.domainsOf r').cache? e = none ↔ (s.domainsOf r').cache? e = none ∨
    r'.domains = r.domains ∧ e = domain ∧ s.cached r.domains domain = [x]

/-- The caches hold what they held, if not in the same order. -/
structure HoldsAll (s s' : Store σ) : Prop where
  held : ∀ k e, (s'.cached k e).Perm (s.cached k e)
  stays : ∀ r e, (s'.domainsOf r).cache? e = none ↔ (s.domainsOf r).cache? e = none

theorem Loses.order (h : Loses r domain x s s') (k : Nat) (e : Int) : s'.cached k e =
    if k = r.domains ∧ e = domain then (s.cached k e).erase x else s.cached k e := by
  -- a handle on the caches with this number
  have hk (s : Store σ) : s.cached k e = (s.domainsOf { r with domains := k }).cached e :=
    cached_eq_domainsOf { r with domains := k } e s
  rw [hk, hk]
  by_cases hr : k = r.domains
  · rw [(h.own { r with domains := k } hr).cached]
    simp [hr]
  · rw [h.others { r with domains := k } hr, if_neg fun hn => hr hn.1]

theorem Loses.drops (h : Loses r domain x s s') (hs : Each Domains.Orderly s)
    (hs' : Each Domains.Orderly s') (hx : x ∈ s.cached r.domains domain) :
    Drops r domain x s s' where
  unreachable r' key hr hkey := by
    cases hfound : (lookup r' domain key s').1 with
    | none => rfl
    | some y =>
      obtain ⟨hy, hykey⟩ := (lookup_eq_some_iff hs').mp hfound
      rw [h.order, if_pos ⟨hr, rfl⟩] at hy
      have hnodup : (s.cached r'.domains domain).Nodup := by
        rw [cached_eq_domainsOf]
        exact (hs.domainsOf Domains.orderly_invariant r').nodup_cached domain
      have hbefore : (lookup r' domain key s).1 = some y :=
        (lookup_eq_some_iff hs).mpr ⟨List.mem_of_mem_erase hy, hykey⟩
      have hbefore' : (lookup r' domain key s).1 = some x :=
        (lookup_eq_some_iff hs).mpr ⟨hr ▸ hx, hkey⟩
      obtain rfl : y = x := Option.some.inj (hbefore.symm.trans hbefore')
      exact absurd rfl (hnodup.mem_erase_iff.mp hy).1
  reachable r' e y key hy hne hkey := by
    refine (lookup_eq_some_iff hs').mpr ⟨?_, hkey⟩
    rw [h.order]
    split
    · next hat => exact (List.mem_erase_of_ne fun hyx => hne ⟨hat.1, hat.2, hyx⟩).mpr hy
    · exact hy
  order := h.order
  goes r' e := by
    by_cases hr : r'.domains = r.domains
    · rw [(h.own r' hr).goes, ← cached_eq_domainsOf, hr]
      simp
    · rw [h.others r' hr]
      simp [hr]

theorem holdsAll_lookup (hs : Each Domains.Orderly s) (r : Registry) (domain : Int) (key : String) :
    HoldsAll s (lookup r domain key s).2 where
  held k e := (lookup_spares (p := fun _ _ => True) r domain key s hs).2 k e trivial
  stays r' e := by
    have hlooked : (lookup r domain key s).2.domainsOf r' = s.domainsOf r' ∨
        (lookup r domain key s).2.domainsOf r' = ((s.domainsOf r').lookup domain key).2 := by
      have hset := s.domainsOf_setDomains r r' ((s.domainsOf r).lookup domain key).2
      split at hset
      · next hr =>
        have hsame : s.domainsOf r = s.domainsOf r' := by rw [domainsOf, domainsOf, hr.1]
        exact .inr (hsame ▸ hset)
      · exact .inl hset
    rcases hlooked with heq | heq <;> rw [heq]
    rcases (s.domainsOf r').lookup_cases domain key with hsame | ⟨c, hc, hset⟩
    · rw [hsame]
    · rw [hset]
      exact Domains.cache?_setCache_eq_none hc e

variable [Outside σ]

/-- Whatever has been called on registries that started with empty caches: invalidating a key of a
tenant's domain drops the one descriptor that the key reaches there, and tells so; otherwise it tells
that there was nothing to drop, and nothing goes. -/
theorem invalidate_drops_reached (configs : List RegistryConfig) (calls : List RegistryCall)
    (s₀ : Store σ) (r : Registry) (domain : Int) (key : String) :
    let s := after call calls (s₀.renew configs)
    ((invalidate r domain key s).1 = true ↔
      1 ≤ domain ∧ ∃ x ∈ s.cached r.domains domain, Text.lower key ∈ x.indexKeys) ∧
    (∀ x ∈ s.cached r.domains domain, Text.lower key ∈ x.indexKeys → 1 ≤ domain →
      Drops r domain x s (invalidate r domain key s).2) ∧
    ((invalidate r domain key s).1 = false → HoldsAll s (invalidate r domain key s).2) := by
  intro s
  have hs : Each Domains.Orderly s :=
    after_each Domains.orderly_invariant (fun _ _ => trivial) (fun _ _ _ _ _ => trivial) configs s₀
  have his : Each Domains.Isolated s :=
    after_each Domains.isolated_invariant (fun _ _ => trivial) (fun _ _ _ _ _ => trivial) configs s₀
  have hs' : Each Domains.Orderly (invalidate r domain key s).2 :=
    (steps_each Domains.orderly_invariant fun _ => trivial).call (.invalidate r domain key) s hs
  -- what the key reaches is what looking it up finds
  have hreach (x : Descriptor) : (lookup r domain key s).1 = some x ↔
      x ∈ s.cached r.domains domain ∧ Text.lower key ∈ x.indexKeys := lookup_eq_some_iff hs
  by_cases hdrop : 1 ≤ domain ∧ ∃ x, (lookup r domain key s).1 = some x
  · obtain ⟨hpos, x, hfound⟩ := hdrop
    obtain ⟨hanswer, hloses⟩ := invalidate_found hs his hpos hfound
    obtain ⟨hx, hkey⟩ := (hreach x).mp hfound
    refine ⟨⟨fun _ => ⟨hpos, x, hx, hkey⟩, fun _ => hanswer⟩, fun y hy hykey _ => ?_, fun hno => ?_⟩
    · obtain rfl : x = y := Option.some.inj (hfound.symm.trans ((hreach y).mpr ⟨hy, hykey⟩))
      exact hloses.drops hs hs' hx
    · rw [hanswer] at hno
      cases hno
  · have hnothing : ∀ x ∈ s.cached r.domains domain, Text.lower key ∈ x.indexKeys → ¬1 ≤ domain :=
      fun x hx hkey hpos => hdrop ⟨hpos, x, (hreach x).mpr ⟨hx, hkey⟩⟩
    have hrefused : invalidate r domain key s = (false, (lookup r domain key s).2) := by
      refine invalidate_refused his ?_
      by_cases hpos : 1 ≤ domain
      · exact .inr (Option.eq_none_iff_forall_ne_some.mpr fun x hx => hdrop ⟨hpos, x, hx⟩)
      · exact .inl (Int.not_le.mp hpos)
    rw [hrefused]
    refine ⟨⟨fun hyes => (nomatch hyes), ?_⟩, ?_, fun _ => holdsAll_lookup hs r domain key⟩
    · rintro ⟨hpos, x, hx, hkey⟩
      exact absurd hpos (hnothing x hx hkey)
    · exact fun x hx hkey hpos => absurd hpos (hnothing x hx hkey)

/-- The cache of the seventh domain goes with its only descriptor; the global domain keeps its own. -/
example :
    let r := Registry.default
    let d (domain : Int) : Descriptor :=
      { id := 0, kind := .dictionary, domain, name := "a", path := "B" }
    let s : Store Directory := after call [.register r (d 0), .register r (d 7)] { outside := {} }
    (invalidate r 7 "b" s).1 = true ∧
      ((invalidate r 7 "b" s).2.domainsOf r).caches.map Prod.fst = [0] ∧
      (invalidate r 0 "b" s).1 = false := by
  decide +kernel

end Store

end TenantSchema
