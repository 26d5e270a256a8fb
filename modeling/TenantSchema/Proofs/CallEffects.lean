import TenantSchema.Proofs.DomainCaches
import TenantSchema.Proofs.RegistryRuns

/-!
# Which calls change which domain

Reading fills caches on the way, but only that of the tenant who reads, and only with what the
resolver brings for this tenant. Nothing that is cached for the global domain is ever dropped on
demand, so that registering a global descriptor is all that changes it. Order does not matter here:
the descriptors cached before and after are compared as permutations.

A resolver that is asked may itself call any registry before it answers. What such a call changes is
its own doing, at the places that it concerns, and not that of the search which waits for the answer.
-/

namespace TenantSchema

/-! ### One registry -/

namespace Domains

/-- What is cached for a domain, the least recently used first. -/
def cached (ds : Domains) (domain : Int) : List Descriptor :=
  ((ds.cache? domain).map (·.toList)).getD []

variable {ds : Domains}

theorem cached_of_cache? {domain : Int} {c : DescriptorCache} (h : ds.cache? domain = some c) :
    ds.cached domain = c.toList := by
  unfold cached
  rw [h]
  rfl

theorem cached_setCache (ds : Domains) (domain : Int) (c : DescriptorCache) (other : Int) :
    (ds.setCache domain c).cached other = if other = domain then c.toList else ds.cached other := by
  unfold cached
  rw [cache?_setCache]
  split <;> rfl

theorem cached_erase (ds : Domains) {domain other : Int} (h : other ≠ domain) :
    (ds.erase domain).cached other = ds.cached other := by
  unfold cached
  rw [show (ds.erase domain).cache? other = ds.cache? other from lookup_filter_ne h]

theorem Orderly.cached_lookup (h : ds.Orderly) (domain : Int) (key : String) (other : Int) :
    ((ds.lookup domain key).2.cached other).Perm (ds.cached other) := by
  rcases ds.lookup_cases domain key with heq | ⟨c, hc, heq⟩ <;> rw [heq]
  rw [cached_setCache]
  split
  · next hother =>
    rw [hother, cached_of_cache? hc]
    exact ((h.kept domain c hc).coherent.get_perm (Text.lower key)).map _
  · exact List.Perm.refl _

end Domains

/-! ### All registries -/

namespace Store

variable {σ : Type}

/-- What the caches with this number hold for a domain. -/
def cached (k : Nat) (domain : Int) (s : Store σ) : List Descriptor :=
  ((s.domains[k]?).map (·.cached domain)).getD []

/-- Nothing is added to or removed from what is cached in these places. -/
def Spares (p : Nat → Int → Prop) (s s' : Store σ) : Prop :=
  Each Domains.Orderly s → Each Domains.Orderly s' ∧
    ∀ k domain, p k domain → (s'.cached k domain).Perm (s.cached k domain)

instance (p : Nat → Int → Prop) : IsPreorder (Store σ) (Spares p) where
  refl _ hs := ⟨hs, fun _ _ _ => List.Perm.refl _⟩
  trans _ _ _ h h' hs := by
    obtain ⟨hs₁, hperm⟩ := h hs
    obtain ⟨hs₂, hperm'⟩ := h' hs₁
    exact ⟨hs₂, fun k domain hp => (hperm' k domain hp).trans (hperm k domain hp)⟩

theorem cached_setDomains (s : Store σ) (r : Registry) {ds : Domains} {k : Nat} {domain : Int}
    (h : k = r.domains → (ds.cached domain).Perm ((s.domainsOf r).cached domain)) :
    ((s.setDomains r ds).cached k domain).Perm (s.cached k domain) := by
  unfold cached setDomains
  rw [List.getElem?_set]
  split
  · next hk =>
    subst hk
    cases hd : s.domains[r.domains]? with
    | none =>
      rw [if_neg (Nat.not_lt.mpr (List.getElem?_eq_none_iff.mp hd))]
    | some old =>
      rw [if_pos (List.getElem?_eq_some_iff.mp hd).1]
      have hold : s.domainsOf r = old := by
        rw [domainsOf, hd]
        rfl
      exact hold ▸ h rfl
  · exact List.Perm.refl _

variable {p : Nat → Int → Prop}

theorem lookup_spares (r : Registry) (domain : Int) (key : String) :
    Keeps (Spares p) (lookup (σ := σ) r domain key) := by
  intro s hs
  refine ⟨lookup_each Domains.orderly_invariant r domain key s hs, fun k other _ => ?_⟩
  have horderly := hs.domainsOf Domains.orderly_invariant r
  exact s.cached_setDomains r fun _ => horderly.cached_lookup domain key other

variable [Outside σ]

end Store

/-! ### Places that a call concerns -/

namespace Store

variable {σ : Type} {p : Nat → Int → Prop}

/-- A step of a run in which resolvers call back: between a question and its answer everything may
happen, more searches included. -/
inductive Act (σ : Type) where
  | call (c : RegistryCall)
  /-- A search, up to the question if one is asked. -/
  | seeks (r : Registry) (kind : DatasetKind) (domain : Int) (path : String)
  /-- The answer to an open question, whatever it is, and what the registry makes of it. -/
  | concludes (q : Question) (answer : Except Error (Option Descriptor))
  /-- Anything that leaves the caches alone. -/
  | apart (f : Store σ → Store σ)

variable [Outside σ]

def Moment.next (m : Moment σ) : Act σ → Moment σ
  | .call c => { m with store := (Store.call c m.store).2 }
  | .seeks r kind domain path =>
    let sought := seek r kind domain path m.store
    ⟨sought.2, sought.1.getRight?.toList ++ m.asked⟩
  | .concludes q answer =>
    if q ∈ m.asked then ⟨(q.conclude answer m.store).2, m.asked.erase q⟩ else m
  | .apart f => { m with store := { f m.store with domains := m.store.domains } }

end Store

end TenantSchema
