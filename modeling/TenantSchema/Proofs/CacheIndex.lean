import TenantSchema.Proofs.RecencyList

/-!
# The index of a cache

After any calls the index of a cache is exactly the keys of its entries: each key stands there once,
with the number of the one entry that lists it, and nothing else stands there. So an operation that
finds a number in the index finds the entry of that number too.
-/

namespace TenantSchema

section Intact

variable {κ α : Type} [DecidableEq κ] {c : Cache κ α} {e : CacheEntry κ α}

/-- A coherent cache, and what follows for those who read it through the index. -/
structure Cache.Intact (c : Cache κ α) : Prop extends c.Coherent where
  /-- No key belongs to two entries. -/
  disjoint : c.entries.Pairwise fun e e' => List.Disjoint e.keys e'.keys
  indexSize : c.index.length = (c.entries.map (·.keys.length)).foldr (· + ·) 0
  /-- A key that stands in the index reaches an entry, whatever looks it up. -/
  reached : ∀ key seq, c.seq? key = some seq → ∃ e, c.entry? seq = some e ∧ key ∈ e.keys
  /-- The one number that the keys of a value reach has its entry. -/
  owned : ∀ v seq, c.owners (c.keys v) = [seq] → ∃ e, c.entry? seq = some e

namespace Cache

theorem Coherent.disjoint_keys (h : c.Coherent) :
    c.entries.Pairwise fun e e' => List.Disjoint e.keys e'.keys := by
  refine h.distinct.of_map.pairwise_of_forall_ne fun e he e' he' hne => ?_
  intro key hk hk'
  exact hne (h.eq_of_key he he' hk hk')

/-- The keys of all entries, the least recently used first. -/
def entryKeys (c : Cache κ α) : List κ := c.entries.flatMap (·.keys)

theorem Coherent.nodup_entryKeys (h : c.Coherent) : c.entryKeys.Nodup := by
  refine List.nodup_flatMap.mpr ⟨?_, h.disjoint_keys⟩
  intro e he
  exact (h.keyed e he).2

/-- The index has the keys of the entries and no others. -/
theorem Coherent.index_perm (h : c.Coherent) : (c.index.map Prod.fst).Perm c.entryKeys := by
  refine (List.perm_ext_iff_of_nodup h.indexed h.nodup_entryKeys).mpr fun key => ?_
  rw [entryKeys, List.mem_flatMap]
  constructor
  · intro hkey
    obtain ⟨⟨_, seq⟩, hm, rfl⟩ := List.mem_map.mp hkey
    have hs : c.seq? _ = some seq := (lookup_eq_some_iff_mem h.indexed).mpr hm
    obtain ⟨e, he, -, hk⟩ := (h.reach _ _).mp hs
    exact ⟨e, he, hk⟩
  · rintro ⟨e, he, hk⟩
    have hm := mem_of_lookup (h.seq?_of_mem he hk)
    exact List.mem_map_of_mem hm

theorem Coherent.index_length (h : c.Coherent) :
    c.index.length = (c.entries.map (·.keys.length)).foldr (· + ·) 0 := by
  have hlength := h.index_perm.length_eq
  rw [List.length_map, entryKeys, List.length_flatMap] at hlength
  exact hlength

theorem Coherent.entry?_of_seq? (h : c.Coherent) {key : κ} {seq : Nat}
    (hs : c.seq? key = some seq) : ∃ e, c.entry? seq = some e ∧ key ∈ e.keys := by
  obtain ⟨e, he, rfl, hk⟩ := (h.reach _ _).mp hs
  exact ⟨e, h.entry?_of_mem he, hk⟩

theorem Coherent.entry?_of_owners (h : c.Coherent) {keys : List κ} {seq : Nat}
    (ho : c.owners keys = [seq]) : ∃ e, c.entry? seq = some e := by
  have hmem : seq ∈ c.owners keys := by rw [ho]; exact List.mem_singleton_self seq
  rw [owners, List.mem_eraseDups, List.mem_filterMap] at hmem
  obtain ⟨key, -, hs⟩ := hmem
  obtain ⟨e, he, -⟩ := h.entry?_of_seq? hs
  exact ⟨e, he⟩

theorem Coherent.intact (h : c.Coherent) : c.Intact where
  toCoherent := h
  disjoint := h.disjoint_keys
  indexSize := h.index_length
  reached _ _ := h.entry?_of_seq?
  owned _ _ := h.entry?_of_owners

/-- No call changes how many entries there may be. -/
theorem Coherent.capacity_step (h : c.Coherent) (call : CacheCall κ α) :
    (step call c).2.capacity = c.capacity := by
  have hview := congrArg Prod.snd (h.view_step call).2
  have hlimit := RecencyList.limit_step call c.view
  rw [hview] at hlimit
  exact hlimit

end Cache

/-- Whatever is called on a new cache, refused calls included, its index is the keys of its entries,
and it holds no more entries than it was made for. -/
theorem cache_stays_intact (capacity : Nat) (keysOf : α → List κ) (calls : List (CacheCall κ α)) :
    (after Cache.step calls (Cache.empty capacity keysOf)).Intact ∧
      (after Cache.step calls (Cache.empty capacity keysOf)).entries.length ≤ max 1 capacity := by
  have hstep : ∀ call (c : Cache κ α), c.Coherent ∧ c.capacity = max 1 capacity →
      (Cache.step call c).2.Coherent ∧ (Cache.step call c).2.capacity = max 1 capacity := by
    intro call c ⟨hc, hcap⟩
    exact ⟨(hc.view_step call).1, (hc.capacity_step call).trans hcap⟩
  have hempty : (Cache.empty capacity keysOf).Coherent ∧
      (Cache.empty capacity keysOf).capacity = max 1 capacity :=
    ⟨Cache.empty_coherent capacity keysOf, Nat.max_comm capacity 1⟩
  obtain ⟨hcoherent, hcap⟩ := after_invariant hstep calls hempty
  exact ⟨hcoherent.intact, hcap ▸ hcoherent.bound⟩

end Intact

end TenantSchema
