import TenantSchema.Cache
import TenantSchema.Proofs.Assoc

/-!
# Coherent caches

The index of a cache and its entries are kept apart and have to agree: a key stands in the index
exactly for the entry that lists it. Every operation keeps that, the refused ones included.
-/

namespace TenantSchema.Cache

variable {κ α : Type}

/-- Index and entries agree, and the entries fit. -/
structure Coherent [DecidableEq κ] (c : Cache κ α) : Prop where
  room : 1 ≤ c.capacity
  bound : c.entries.length ≤ c.capacity
  distinct : (c.entries.map (·.seq)).Nodup
  numbered : ∀ e ∈ c.entries, 1 ≤ e.seq ∧ e.seq ≤ c.counter
  keyed : ∀ e ∈ c.entries, e.keys ≠ [] ∧ e.keys.Nodup
  indexed : (c.index.map Prod.fst).Nodup
  reach : ∀ key seq, c.seq? key = some seq ↔ ∃ e ∈ c.entries, e.seq = seq ∧ key ∈ e.keys

variable [DecidableEq κ]

theorem empty_coherent (capacity : Nat) (keysOf : α → List κ) :
    (empty capacity keysOf).Coherent where
  room := Nat.le_max_right _ _
  bound := Nat.zero_le _
  distinct := List.nodup_nil
  numbered := by simp [empty]
  keyed := by simp [empty]
  indexed := List.nodup_nil
  reach := by simp [empty, seq?]

/-! ### What a key reaches -/

section Reach

variable {c : Cache κ α} {e : CacheEntry κ α}

theorem Coherent.seq?_of_mem (h : c.Coherent) {key : κ} (he : e ∈ c.entries) (hk : key ∈ e.keys) :
    c.seq? key = some e.seq :=
  (h.reach _ _).mpr ⟨e, he, rfl, hk⟩

theorem Coherent.seq?_eq_none (h : c.Coherent) {key : κ} :
    c.seq? key = none ↔ ∀ e ∈ c.entries, key ∉ e.keys := by
  constructor
  · intro hn e he hk
    rw [h.seq?_of_mem he hk] at hn
    exact absurd hn (by simp)
  · intro hn
    cases hs : c.seq? key with
    | none => rfl
    | some seq =>
      obtain ⟨e, he, -, hk⟩ := (h.reach _ _).mp hs
      exact absurd hk (hn e he)

theorem Coherent.eq_of_seq (h : c.Coherent) {e' : CacheEntry κ α} (he : e ∈ c.entries)
    (he' : e' ∈ c.entries) (hs : e.seq = e'.seq) : e = e' :=
  List.inj_on_of_nodup_map h.distinct he he' hs

/-- No key reaches two entries. -/
theorem Coherent.eq_of_key (h : c.Coherent) {e' : CacheEntry κ α} {key : κ} (he : e ∈ c.entries)
    (he' : e' ∈ c.entries) (hk : key ∈ e.keys) (hk' : key ∈ e'.keys) : e = e' := by
  have hs : some e.seq = some e'.seq := (h.seq?_of_mem he hk).symm.trans (h.seq?_of_mem he' hk')
  exact h.eq_of_seq he he' (Option.some.inj hs)

theorem Coherent.entry?_of_mem (h : c.Coherent) (he : e ∈ c.entries) :
    c.entry? e.seq = some e := by
  refine find?_eq_some_of_unique he (by simp) fun e' he' hs => ?_
  exact h.eq_of_seq he' he (by simpa using hs)

/-- The entry of a key, found without the index. -/
theorem Coherent.owner_eq_find? (h : c.Coherent) (key : κ) :
    (c.seq? key).bind c.entry? = c.entries.find? (key ∈ ·.keys) := by
  cases hs : c.seq? key with
  | none =>
    have hn := h.seq?_eq_none.mp hs
    symm
    rw [Option.bind_none, List.find?_eq_none]
    simpa using hn
  | some seq =>
    obtain ⟨e, he, rfl, hk⟩ := (h.reach _ _).mp hs
    rw [Option.bind_some, h.entry?_of_mem he]
    refine (find?_eq_some_of_unique he (by simpa using hk) fun e' he' hk' => ?_).symm
    exact h.eq_of_key he' he (by simpa using hk') hk

theorem Coherent.owner_some (h : c.Coherent) {key : κ}
    (ho : (c.seq? key).bind c.entry? = some e) : e ∈ c.entries ∧ key ∈ e.keys := by
  rw [h.owner_eq_find?] at ho
  exact ⟨List.mem_of_find?_eq_some ho, by simpa using List.find?_some ho⟩

/-- Taking an entry out by its number is taking out what one of its keys reaches. -/
theorem Coherent.drop_eq_filter (h : c.Coherent) {key : κ} (he : e ∈ c.entries)
    (hk : key ∈ e.keys) :
    (c.drop e.seq).entries = c.entries.filter fun e => !decide (key ∈ e.keys) := by
  show c.entries.filter (·.seq ≠ e.seq) = _
  refine List.filter_congr fun e' he' => ?_
  by_cases hs : e'.seq = e.seq
  · have := h.eq_of_seq he' he hs
    simp [this, hk]
  · have hk' : key ∉ e'.keys := by
      intro hk'
      exact hs (congrArg _ (h.eq_of_key he' he hk' hk))
    simp [hs, hk']

end Reach

/-! ### What the index says after a step -/

section Index

variable (c : Cache κ α) (keys : List κ) (seq : Nat)

@[simp] theorem capacity_evict : c.evict.capacity = c.capacity := by
  unfold evict
  split
  · rfl
  · split <;> rfl

@[simp] theorem counter_evict : c.evict.counter = c.counter := by
  unfold evict
  split
  · rfl
  · split <;> rfl

@[simp] theorem keysOf_evict : c.evict.keysOf = c.keysOf := by
  unfold evict
  split
  · rfl
  · split <;> rfl

/-- Only the index of a cache changes when keys are indexed. -/
theorem indexAll_eq : c.indexAll keys seq = { c with index := (c.indexAll keys seq).index } := by
  induction keys generalizing c with
  | nil => rfl
  | cons key rest ih => exact ih (c.indexKey key seq)

@[simp] theorem entries_indexAll : (c.indexAll keys seq).entries = c.entries := by rw [indexAll_eq]

@[simp] theorem capacity_indexAll : (c.indexAll keys seq).capacity = c.capacity := by
  rw [indexAll_eq]

@[simp] theorem counter_indexAll : (c.indexAll keys seq).counter = c.counter := by rw [indexAll_eq]

@[simp] theorem keysOf_indexAll : (c.indexAll keys seq).keysOf = c.keysOf := by rw [indexAll_eq]

theorem seq?_indexKey (key k : κ) :
    (c.indexKey key seq).seq? k = if k = key then some seq else c.seq? k :=
  lookup_put c.index key k seq

theorem seq?_indexAll (k : κ) :
    (c.indexAll keys seq).seq? k = if k ∈ keys then some seq else c.seq? k := by
  induction keys generalizing c with
  | nil => rfl
  | cons key rest ih =>
    show ((c.indexKey key seq).indexAll rest seq).seq? k = _
    rw [ih, seq?_indexKey]
    by_cases hr : k ∈ rest <;> by_cases hk : k = key <;> simp [hr, hk]

theorem nodup_indexAll (h : (c.index.map Prod.fst).Nodup) :
    ((c.indexAll keys seq).index.map Prod.fst).Nodup := by
  induction keys generalizing c with
  | nil => exact h
  | cons key rest ih => exact ih (c.indexKey key seq) (nodup_keys_put h key seq)

theorem seq?_unindex (h : (c.index.map Prod.fst).Nodup) (k : κ) :
    (c.unindex keys seq).seq? k =
      if k ∈ keys ∧ c.seq? k = some seq then none else c.seq? k := by
  have hn := nodup_keys_filter h fun e => !(keys.contains e.1 && e.2 == seq)
  by_cases hk : k ∈ keys ∧ c.seq? k = some seq
  · rw [if_pos hk]
    show (c.index.filter _).lookup k = none
    rw [List.lookup_eq_none_iff]
    intro e he
    obtain ⟨hm, hp⟩ := List.mem_filter.mp he
    by_contra hke
    have hke : k = e.1 := by simpa using hke
    have hs := (lookup_eq_some_iff_mem h).mpr (show (k, e.2) ∈ c.index by rw [hke]; exact hm)
    have : e.2 = seq := Option.some.inj (hs.symm.trans hk.2)
    simp [← hke, hk.1, this] at hp
  · rw [if_neg hk]
    refine lookup_filter fun e he hke => ?_
    have hs := (lookup_eq_some_iff_mem h).mpr (show (k, e.2) ∈ c.index by rw [← hke]; exact he)
    rw [hke]
    by_contra hp
    simp only [Bool.not_eq_true, Bool.not_eq_false', Bool.and_eq_true, List.contains_iff_mem,
      beq_iff_eq] at hp
    exact hk ⟨hp.1, by rw [← hp.2]; exact hs⟩

theorem nodup_unindex (h : (c.index.map Prod.fst).Nodup) :
    ((c.unindex keys seq).index.map Prod.fst).Nodup :=
  nodup_keys_filter h _

end Index

/-! ### Every step keeps a cache coherent -/

section Steps

variable {c : Cache κ α} {e : CacheEntry κ α}

/-- An entry with all its keys is gone. -/
theorem Coherent.takeOut (h : c.Coherent) (he : e ∈ c.entries) :
    ((c.drop e.seq).unindex e.keys e.seq).Coherent where
  room := h.room
  bound := Nat.le_trans (List.length_filter_le _ _) h.bound
  distinct := h.distinct.sublist (List.filter_sublist.map _)
  numbered e' he' := h.numbered e' (List.mem_filter.mp he').1
  keyed e' he' := h.keyed e' (List.mem_filter.mp he').1
  indexed := nodup_unindex (c.drop e.seq) e.keys e.seq h.indexed
  reach key seq := by
    rw [seq?_unindex (c.drop e.seq) e.keys e.seq h.indexed]
    have hd : (c.drop e.seq).seq? key = c.seq? key := rfl
    rw [hd]
    show _ ↔ ∃ e' ∈ c.entries.filter (·.seq ≠ e.seq), e'.seq = seq ∧ key ∈ e'.keys
    simp only [List.mem_filter]
    -- a key of the entry reached nothing else, so nothing is left for it
    by_cases hk : key ∈ e.keys
    · rw [if_pos ⟨hk, h.seq?_of_mem he hk⟩]
      refine ⟨fun hn => absurd hn (by simp), ?_⟩
      rintro ⟨e', ⟨he', hne⟩, -, hk'⟩
      rw [h.eq_of_key he' he hk' hk] at hne
      simp at hne
    · rw [if_neg fun hn => hk hn.1, h.reach]
      constructor
      · rintro ⟨e', he', hs, hk'⟩
        refine ⟨e', ⟨he', ?_⟩, hs, hk'⟩
        have hne : e'.seq ≠ e.seq := fun hs => hk (h.eq_of_seq he' he hs ▸ hk')
        simpa using hne
      · rintro ⟨e', ⟨he', -⟩, hs, hk'⟩
        exact ⟨e', he', hs, hk'⟩

/-- Making an entry the newest one changes nothing but the order. -/
theorem Coherent.promote_perm (h : c.Coherent) (he : e ∈ c.entries) :
    ((c.drop e.seq).push e).entries.Perm c.entries := by
  have hn : c.entries.Nodup := h.distinct.of_map
  have hd : (c.entries.filter (·.seq ≠ e.seq) ++ [e]).Nodup := by
    rw [List.nodup_append]
    refine ⟨hn.filter _, by simp, ?_⟩
    rintro e' he' _ hs rfl
    rw [List.mem_singleton.mp hs] at he'
    simpa using (List.mem_filter.mp he').2
  refine (List.perm_ext_iff_of_nodup hd hn).mpr fun e' => ?_
  rw [List.mem_append, List.mem_filter, List.mem_singleton]
  constructor
  · rintro (⟨he', -⟩ | rfl)
    · exact he'
    · exact he
  · intro he'
    by_cases hs : e'.seq = e.seq
    · exact .inr (h.eq_of_seq he' he hs)
    · exact .inl ⟨he', by simpa using hs⟩

theorem Coherent.promote (h : c.Coherent) (he : e ∈ c.entries) :
    ((c.drop e.seq).push e).Coherent := by
  have hp := h.promote_perm he
  refine ⟨h.room, hp.length_eq ▸ h.bound, (hp.map _).nodup_iff.mpr h.distinct,
    fun e' he' => h.numbered e' (hp.mem_iff.mp he'),
    fun e' he' => h.keyed e' (hp.mem_iff.mp he'), h.indexed, fun key seq => ?_⟩
  show c.seq? key = some seq ↔ _
  rw [h.reach]
  simp only [hp.mem_iff]

theorem Coherent.count (h : c.Coherent) {n : Nat} (hn : c.counter ≤ n) :
    { c with counter := n }.Coherent where
  room := h.room
  bound := h.bound
  distinct := h.distinct
  numbered e he := ⟨(h.numbered e he).1, Nat.le_trans (h.numbered e he).2 hn⟩
  keyed := h.keyed
  indexed := h.indexed
  reach := h.reach

/-- The oldest entry of a cache is the one that `evict` takes out. -/
theorem Coherent.drop_oldest (h : c.Coherent) {rest : List (CacheEntry κ α)}
    (hc : c.entries = e :: rest) : (c.drop e.seq).entries = rest := by
  show c.entries.filter (·.seq ≠ e.seq) = rest
  have hd := h.distinct
  rw [hc, List.map_cons, List.nodup_cons] at hd
  rw [hc, List.filter_cons_of_neg (by simp), List.filter_eq_self]
  intro e' he'
  have hne : e'.seq ≠ e.seq := fun hs => hd.1 (hs ▸ List.mem_map_of_mem he')
  simpa using hne

theorem Coherent.evict_eq (h : c.Coherent) (hf : c.capacity ≤ c.entries.length) :
    ∃ e ∈ c.entries, c.evict = (c.drop e.seq).unindex e.keys e.seq ∧
      c.entries = e :: c.evict.entries := by
  have hr := h.room
  cases hc : c.entries with
  | nil =>
    rw [hc] at hf
    exact absurd hf (by simp only [List.length_nil]; omega)
  | cons e rest =>
    have hd := h.drop_oldest hc
    have he : c.evict = (c.drop e.seq).unindex e.keys e.seq := by
      unfold evict
      rw [if_neg (Nat.not_lt.mpr hf), hc]
      simp only [← hd]
      rfl
    refine ⟨e, List.mem_cons_self, he, ?_⟩
    rw [he]
    exact congrArg _ hd.symm

theorem Coherent.evict (h : c.Coherent) : c.evict.Coherent := by
  by_cases hf : c.entries.length < c.capacity
  · rw [Cache.evict, if_pos hf]
    exact h
  · obtain ⟨e, he, hev, -⟩ := h.evict_eq (Nat.not_lt.mp hf)
    rw [hev]
    exact h.takeOut he

/-- The entries that stay when room is made for one more. -/
theorem Coherent.entries_evict (h : c.Coherent) :
    c.evict.entries =
      if c.entries.length < c.capacity then c.entries else c.entries.tail := by
  by_cases hf : c.entries.length < c.capacity
  · rw [Cache.evict, if_pos hf, if_pos hf]
  · obtain ⟨e, -, -, hev⟩ := h.evict_eq (Nat.not_lt.mp hf)
    rw [if_neg hf, hev]
    rfl

theorem Coherent.mem_of_mem_evict (h : c.Coherent) (he : e ∈ c.evict.entries) :
    e ∈ c.entries := by
  rw [h.entries_evict] at he
  split_ifs at he
  · exact he
  · exact List.mem_of_mem_tail he

theorem Coherent.length_evict (h : c.Coherent) : c.evict.entries.length < c.capacity := by
  rw [h.entries_evict]
  have hr := h.room
  have hb := h.bound
  split_ifs with hf
  · exact hf
  · rw [List.length_tail]
    omega

/-- One more entry, under keys that reach nothing yet. -/
theorem Coherent.write (h : c.Coherent) {c' : Cache κ α} (hcap : c'.capacity = c.capacity)
    (hcount : c'.counter = c.counter) (hent : c'.entries = c.entries ++ [e])
    (hidx : (c'.index.map Prod.fst).Nodup)
    (hseq : ∀ key, c'.seq? key = if key ∈ e.keys then some e.seq else c.seq? key)
    (hroom : c.entries.length < c.capacity) (hnew : ∀ e' ∈ c.entries, e'.seq ≠ e.seq)
    (hnum : 1 ≤ e.seq ∧ e.seq ≤ c.counter) (hkeys : e.keys ≠ [] ∧ e.keys.Nodup)
    (hfree : ∀ key ∈ e.keys, c.seq? key = none) : c'.Coherent where
  room := hcap ▸ h.room
  bound := by
    rw [hcap, hent, List.length_append, List.length_singleton]
    exact hroom
  distinct := by
    rw [hent, List.map_append, List.nodup_append]
    refine ⟨h.distinct, by simp, ?_⟩
    intro s hs s' hs' heq
    obtain ⟨e', he', rfl⟩ := List.mem_map.mp hs
    simp only [List.map_cons, List.map_nil, List.mem_singleton] at hs'
    exact hnew e' he' (heq.trans hs')
  numbered e' he' := by
    rw [hent, List.mem_append, List.mem_singleton] at he'
    rw [hcount]
    rcases he' with he' | rfl
    · exact h.numbered e' he'
    · exact hnum
  keyed e' he' := by
    rw [hent, List.mem_append, List.mem_singleton] at he'
    rcases he' with he' | rfl
    · exact h.keyed e' he'
    · exact hkeys
  indexed := hidx
  reach key seq := by
    rw [hseq, hent]
    by_cases hk : key ∈ e.keys
    · rw [if_pos hk, Option.some.injEq]
      constructor
      · rintro rfl
        exact ⟨e, by simp, rfl, hk⟩
      · rintro ⟨e', he', rfl, hk'⟩
        rcases List.mem_append.mp he' with he' | he'
        · exact absurd hk' (h.seq?_eq_none.mp (hfree key hk) e' he')
        · rw [List.mem_singleton.mp he']
    · rw [if_neg hk, h.reach]
      constructor
      · rintro ⟨e', he', hs, hk'⟩
        exact ⟨e', List.mem_append_left _ he', hs, hk'⟩
      · rintro ⟨e', he', hs, hk'⟩
        rcases List.mem_append.mp he' with he' | he'
        · exact ⟨e', he', hs, hk'⟩
        · exact absurd (List.mem_singleton.mp he' ▸ hk') hk

theorem Coherent.append (h : c.Coherent) {keys : List κ} (hk : keys ≠ []) (hn : keys.Nodup)
    (hfree : ∀ key ∈ keys, c.seq? key = none) (v : α) : (c.append keys v).Coherent := by
  have hc := h.count (Nat.le_succ c.counter)
  refine hc.evict.write (e := ⟨c.counter + 1, keys, v⟩) ?_ ?_ ?_ ?_ (seq?_indexAll _ _ _) ?_ ?_ ?_
    ⟨hk, hn⟩ ?_
  · simp [Cache.append, push]
  · simp [Cache.append, push]
  · simp [Cache.append, push]
  · exact nodup_indexAll _ _ _ hc.evict.indexed
  · simpa using hc.length_evict
  · intro e he
    have := (h.numbered e (hc.mem_of_mem_evict he)).2
    show e.seq ≠ c.counter + 1
    omega
  · rw [counter_evict]
    exact ⟨Nat.le_add_left _ _, Nat.le_refl _⟩
  · intro key hkey
    refine hc.evict.seq?_eq_none.mpr fun e he => ?_
    exact h.seq?_eq_none.mp (hfree key hkey) e (hc.mem_of_mem_evict he)

theorem Coherent.replace (h : c.Coherent) (he : e ∈ c.entries) {keys : List κ} (hk : keys ≠ [])
    (hn : keys.Nodup) (hfree : ∀ key ∈ keys, ∀ seq, c.seq? key = some seq → seq = e.seq) (v : α) :
    (c.replace e keys v).Coherent := by
  have hidx := nodup_unindex ((c.drop e.seq).push ⟨e.seq, keys, v⟩)
    (e.keys.filter (!keys.contains ·)) e.seq h.indexed
  have hout := h.takeOut he
  refine hout.write (e := ⟨e.seq, keys, v⟩) ?_ ?_ ?_ (nodup_indexAll _ _ _ hidx) ?_ ?_ ?_
    (h.numbered e he) ⟨hk, hn⟩ ?_
  · simp [Cache.replace, push, drop, unindex]
  · simp [Cache.replace, push, drop, unindex]
  · simp [Cache.replace, push, drop, unindex]
  · intro key
    unfold Cache.replace
    rw [seq?_indexAll, seq?_unindex ((c.drop e.seq).push ⟨e.seq, keys, v⟩) _ _ h.indexed,
      seq?_unindex (c.drop e.seq) _ _ h.indexed]
    have h1 : ((c.drop e.seq).push ⟨e.seq, keys, v⟩).seq? key = c.seq? key := rfl
    have h2 : (c.drop e.seq).seq? key = c.seq? key := rfl
    rw [h1, h2]
    -- keys that the old and the new entry share never leave the index
    by_cases hkey : key ∈ keys <;> simp [hkey]
  · have hp := (h.promote_perm he).length_eq
    have hb := h.bound
    simp only [push, List.length_append, List.length_singleton] at hp
    show (c.drop e.seq).entries.length < c.capacity
    omega
  · intro e' he'
    simpa using (List.mem_filter.mp he').2
  · intro key hkey
    rw [seq?_unindex (c.drop e.seq) _ _ h.indexed]
    have hd : (c.drop e.seq).seq? key = c.seq? key := rfl
    rw [hd]
    cases hs : c.seq? key with
    | none => simp
    | some seq =>
      obtain rfl := hfree key hkey seq hs
      obtain ⟨e', he', hs', hk'⟩ := (h.reach _ _).mp hs
      have hek : key ∈ e.keys := h.eq_of_seq he' he hs' ▸ hk'
      rw [if_pos ⟨hek, rfl⟩]

end Steps

/-! ### What the operations do -/

section Operations

variable {c : Cache κ α} {e : CacheEntry κ α}

/-- The entries that some of the keys reach. -/
def touched (c : Cache κ α) (keys : List κ) : List (CacheEntry κ α) :=
  c.entries.filter fun e => keys.any fun key => decide (key ∈ e.keys)

theorem mem_touched {keys : List κ} :
    e ∈ c.touched keys ↔ e ∈ c.entries ∧ ∃ key ∈ keys, key ∈ e.keys := by
  simp [touched]

/-- The index finds the numbers of the entries that the keys touch. -/
theorem Coherent.owners_perm (h : c.Coherent) (keys : List κ) :
    (c.owners keys).Perm ((c.touched keys).map (·.seq)) := by
  have hn : ((c.touched keys).map (·.seq)).Nodup :=
    h.distinct.sublist (List.filter_sublist.map _)
  refine (List.perm_ext_iff_of_nodup (nodup_eraseDups _) hn).mpr fun seq => ?_
  rw [List.mem_eraseDups, List.mem_filterMap, List.mem_map]
  constructor
  · rintro ⟨key, hkey, hs⟩
    obtain ⟨e, he, hes, hk⟩ := (h.reach _ _).mp hs
    exact ⟨e, mem_touched.mpr ⟨he, key, hkey, hk⟩, hes⟩
  · rintro ⟨e, he, hes⟩
    obtain ⟨he, key, hkey, hk⟩ := mem_touched.mp he
    exact ⟨key, hkey, (h.reach _ _).mpr ⟨e, he, hes, hk⟩⟩

/-- All that an `add` can do. -/
theorem Coherent.add_cases (h : c.Coherent) (v : α) :
    (c.keys v = [] ∧ c.add v = .error .noKeys) ∨
    (c.keys v ≠ [] ∧ c.touched (c.keys v) = [] ∧ c.add v = .ok (c.append (c.keys v) v)) ∨
    (∃ e ∈ c.entries, c.keys v ≠ [] ∧ c.touched (c.keys v) = [e] ∧
      c.add v = .ok (c.replace e (c.keys v) v)) ∨
    (2 ≤ (c.touched (c.keys v)).length ∧
      c.add v = .error (.keysReserved ((c.keys v).filter fun key => (c.seq? key).isSome))) := by
  cases hk : c.keys v with
  | nil => exact .inl ⟨rfl, by simp [add, hk]⟩
  | cons key more =>
    have hp := h.owners_perm (key :: more)
    refine .inr ?_
    cases ht : c.touched (key :: more) with
    | nil =>
      rw [ht, List.map_nil] at hp
      exact .inl ⟨by simp, rfl, by simp [add, hk, hp.eq_nil]⟩
    | cons e rest =>
      have he : e ∈ c.entries := (mem_touched.mp (ht ▸ List.mem_cons_self)).1
      cases rest with
      | nil =>
        rw [ht, List.map_cons, List.map_nil] at hp
        refine .inr (.inl ⟨e, he, by simp, rfl, ?_⟩)
        simp [add, hk, List.perm_singleton.mp hp, h.entry?_of_mem he]
      | cons e' rest =>
        refine .inr (.inr ⟨by simp, ?_⟩)
        rw [ht] at hp
        have hl := hp.length_eq
        simp only [add, hk]
        split
        · next ho => simp [ho] at hl
        · next ho => simp [ho] at hl
        · rfl

theorem Coherent.seq?_none_of_touched (h : c.Coherent) {keys : List κ}
    (ht : c.touched keys = []) : ∀ key ∈ keys, c.seq? key = none := by
  intro key hkey
  refine h.seq?_eq_none.mpr fun e he hk => ?_
  have := mem_touched.mpr ⟨he, key, hkey, hk⟩
  rw [ht] at this
  exact absurd this (by simp)

theorem Coherent.eq_of_touched {keys : List κ} (ht : c.touched keys = [e])
    {e' : CacheEntry κ α} (he' : e' ∈ c.entries) {key : κ} (hkey : key ∈ keys)
    (hk : key ∈ e'.keys) : e' = e := by
  have := mem_touched.mpr ⟨he', key, hkey, hk⟩
  rw [ht] at this
  exact List.mem_singleton.mp this

theorem Coherent.add (h : c.Coherent) {v : α} {c' : Cache κ α} (ha : c.add v = .ok c') :
    c'.Coherent := by
  have hn : (c.keys v).Nodup := nodup_eraseDups _
  obtain ⟨-, he⟩ | ⟨hk, ht, ho⟩ | ⟨e, he, hk, ht, ho⟩ | ⟨-, he⟩ := h.add_cases v
  · rw [ha] at he
    cases he
  · rw [ha] at ho
    cases ho
    exact h.append hk hn (h.seq?_none_of_touched ht) v
  · rw [ha] at ho
    cases ho
    refine h.replace he hk hn (fun key hkey seq hs => ?_) v
    obtain ⟨e', he', hes, hk'⟩ := (h.reach _ _).mp hs
    rw [← hes, Coherent.eq_of_touched ht he' hkey hk']
  · rw [ha] at he
    cases he

theorem Coherent.get (h : c.Coherent) (key : κ) : (c.get key).2.Coherent := by
  unfold Cache.get
  split
  · next e ho => exact h.promote (h.owner_some ho).1
  · exact h

theorem Coherent.remove (h : c.Coherent) (key : κ) : (c.remove key).2.Coherent := by
  unfold Cache.remove
  split
  · next e ho => exact h.takeOut (h.owner_some ho).1
  · exact h

/-- What the key reached is gone, and so is the key. -/
theorem Coherent.seq?_remove (h : c.Coherent) (key : κ) : (c.remove key).2.seq? key = none := by
  refine (h.remove key).seq?_eq_none.mpr fun e he hk => ?_
  unfold Cache.remove at he
  cases ho : (c.seq? key).bind c.entry? with
  | none =>
    rw [ho] at he
    rw [h.owner_eq_find?, List.find?_eq_none] at ho
    exact absurd hk (by simpa using ho e he)
  | some e' =>
    rw [ho] at he
    obtain ⟨he', hk'⟩ := h.owner_some ho
    obtain ⟨hm, hne⟩ := List.mem_filter.mp he
    rw [h.eq_of_key hm he' hk hk'] at hne
    simp at hne

theorem Coherent.deleteKey (h : c.Coherent) (key : κ) : (c.deleteKey key).2.Coherent := by
  have hr := h.remove key
  refine ⟨hr.room, hr.bound, hr.distinct, hr.numbered, hr.keyed, nodup_keys_filter hr.indexed _,
    fun k seq => ?_⟩
  refine Iff.trans ?_ (hr.reach k seq)
  show ((c.remove key).2.index.filter (·.1 ≠ key)).lookup k = some seq ↔ _
  by_cases hk : k = key
  · rw [hk, lookup_filter_ne_self, h.seq?_remove]
  · rw [lookup_filter_ne hk]
    rfl

theorem Coherent.deleteKeys (h : c.Coherent) (keys : List κ) : (c.deleteKeys keys).2.Coherent := by
  induction keys generalizing c with
  | nil => exact h
  | cons key rest ih => exact ih (h.deleteKey key)

theorem Coherent.delete (h : c.Coherent) (v : α) : (c.delete v).2.Coherent := h.deleteKeys _

end Operations

end TenantSchema.Cache
