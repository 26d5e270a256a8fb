import TenantSchema.Proofs.CacheIndex

/-!
# Entries in recent use

An add that succeeds and a get that finds an entry make that entry the newest one, so each of them
puts at most one entry behind it; no other call does. Room is made by dropping the oldest entry of a
full cache. Main statement: an entry in use outlives fewer further uses than the cache has room for,
whatever else is called in between, unless it is rewritten or removed.
-/

namespace TenantSchema.Cache

variable {κ α : Type} [DecidableEq κ] {c c' : Cache κ α} {e e' : CacheEntry κ α} {n : Nat}

/-! ### Uses of a run -/

/-- The call is an add that succeeds or a get that finds an entry. -/
def uses (c : Cache κ α) : CacheCall κ α → Bool
  | .add v => (c.add v).isOk
  | .get key => (c.get key).1.isSome
  | _ => false

/-- The entry that such a call writes or finds, seen after it. -/
def IsUsed (c : Cache κ α) : CacheCall κ α → CacheEntry κ α → Prop
  | .add v, e => e.keys = c.keys v ∧ e.value = v
  | .get key, e => key ∈ e.keys
  | _, _ => False

/-- The call rewrites or removes the entry. A refused add does not, even if some of its keys are
those of the entry. -/
def changes (c : Cache κ α) (e : CacheEntry κ α) : CacheCall κ α → Bool
  | .add v => (c.add v).isOk && RecencyList.touches (c.keys v) e.pair
  | .delete v => RecencyList.touches (c.keys v) e.pair
  | .remove key => RecencyList.owns key e.pair
  | _ => false

/-- How many calls of a run are uses. -/
def useCount : List (CacheCall κ α) → Cache κ α → Nat
  | [], _ => 0
  | call :: calls, c => (c.uses call).toNat + useCount calls (step call c).2

/-- No call of a run changes the entry. -/
def sparedBy (e : CacheEntry κ α) : List (CacheCall κ α) → Cache κ α → Bool
  | [], _ => true
  | call :: calls, c => !c.changes e call && sparedBy e calls (step call c).2

/-! ### Places in the order -/

/-- The entry is there, and at most `n` entries are newer. -/
def Recent (c : Cache κ α) (n : Nat) (e : CacheEntry κ α) : Prop :=
  ∃ older newer, c.entries = older ++ e :: newer ∧ newer.length ≤ n

omit [DecidableEq κ] in
theorem Recent.mem (h : c.Recent n e) : e ∈ c.entries := by
  obtain ⟨older, newer, hc, -⟩ := h
  rw [hc]
  exact List.mem_append_right _ (List.mem_cons_self ..)

omit [DecidableEq κ] in
theorem Recent.mono {m : Nat} (h : c.Recent n e) (hm : n ≤ m) : c.Recent m e := by
  obtain ⟨older, newer, hc, hn⟩ := h
  exact ⟨older, newer, hc, Nat.le_trans hn hm⟩

omit [DecidableEq κ] in
theorem Recent.filter {p : CacheEntry κ α → Bool} (h : c.Recent n e) (hp : p e = true)
    (hc' : c'.entries = c.entries.filter p) : c'.Recent n e := by
  obtain ⟨older, newer, hc, hn⟩ := h
  refine ⟨older.filter p, newer.filter p, ?_, Nat.le_trans (List.length_filter_le _ _) hn⟩
  rw [hc', hc, List.filter_append, List.filter_cons_of_pos hp]

omit [DecidableEq κ] in
theorem Recent.push (h : c.Recent n e) (e' : CacheEntry κ α) : (c.push e').Recent (n + 1) e := by
  obtain ⟨older, newer, hc, hn⟩ := h
  refine ⟨older, newer ++ [e'], ?_, by simpa using hn⟩
  show c.entries ++ [e'] = _
  rw [hc, List.append_assoc, List.cons_append]

theorem Coherent.recent_drop (h : c.Coherent) (hr : c.Recent n e) (he' : e' ∈ c.entries)
    (hne : e ≠ e') : (c.drop e'.seq).Recent n e := by
  have hs : e.seq ≠ e'.seq := fun heq => hne (h.eq_of_seq hr.mem he' heq)
  exact hr.filter (p := (·.seq ≠ e'.seq)) (by simpa using hs) rfl

theorem entries_append (c : Cache κ α) (keys : List κ) (v : α) :
    (c.append keys v).entries =
      ({ c with counter := c.counter + 1 }.evict.push ⟨c.counter + 1, keys, v⟩).entries := by
  rw [Cache.append, entries_indexAll]

theorem entries_replace (c : Cache κ α) (e : CacheEntry κ α) (keys : List κ) (v : α) :
    (c.replace e keys v).entries = ((c.drop e.seq).push ⟨e.seq, keys, v⟩).entries := by
  rw [Cache.replace, entries_indexAll]
  rfl

/-- The oldest entry is another one as long as the cache has more room than there are newer
entries. -/
theorem Coherent.recent_evict (h : c.Coherent) (hr : c.Recent n e) (hn : n + 1 < c.capacity) :
    c.evict.Recent n e := by
  obtain ⟨older, newer, hc, hlen⟩ := hr
  have hev := h.entries_evict
  split_ifs at hev with hroom
  · exact ⟨older, newer, hev.trans hc, hlen⟩
  · cases older with
    | nil =>
      rw [hc] at hroom
      simp only [List.nil_append, List.length_cons] at hroom
      omega
    | cons oldest older =>
      refine ⟨older, newer, ?_, hlen⟩
      rw [hev, hc]
      rfl

theorem Coherent.recent_append (h : c.Coherent) (hr : c.Recent n e) (hn : n + 1 < c.capacity)
    (keys : List κ) (v : α) : (c.append keys v).Recent (n + 1) e := by
  have hev := (h.count (Nat.le_succ c.counter)).recent_evict hr hn
  obtain ⟨older, newer, hc, hlen⟩ := hev.push ⟨c.counter + 1, keys, v⟩
  exact ⟨older, newer, (c.entries_append keys v).trans hc, hlen⟩

theorem Coherent.recent_replace (h : c.Coherent) (hr : c.Recent n e) (he' : e' ∈ c.entries)
    (hne : e ≠ e') (keys : List κ) (v : α) : (c.replace e' keys v).Recent (n + 1) e := by
  obtain ⟨older, newer, hc, hlen⟩ := (h.recent_drop hr he' hne).push ⟨e'.seq, keys, v⟩
  exact ⟨older, newer, (c.entries_replace e' keys v).trans hc, hlen⟩

theorem Coherent.recent_promote (h : c.Coherent) (hr : c.Recent n e) (he' : e' ∈ c.entries) :
    ((c.drop e'.seq).push e').Recent (n + 1) e := by
  by_cases hne : e = e'
  · subst hne
    exact ⟨_, [], rfl, Nat.zero_le _⟩
  · exact (h.recent_drop hr he' hne).push e'

theorem Coherent.recent_remove (h : c.Coherent) (hr : c.Recent n e) {key : κ}
    (hk : key ∉ e.keys) : (c.remove key).2.Recent n e := by
  unfold Cache.remove
  cases ho : (c.seq? key).bind c.entry? with
  | none => exact hr
  | some e' =>
    obtain ⟨he', hk'⟩ := h.owner_some ho
    exact h.recent_drop hr he' fun heq => hk (heq ▸ hk')

theorem Coherent.recent_deleteKeys (h : c.Coherent) (hr : c.Recent n e) {keys : List κ}
    (hk : ∀ key ∈ keys, key ∉ e.keys) : (c.deleteKeys keys).2.Recent n e := by
  induction keys generalizing c with
  | nil => exact hr
  | cons key rest ih =>
    rw [List.forall_mem_cons] at hk
    exact ih (h.deleteKey key) (h.recent_remove hr hk.1) hk.2

/-! ### One call and whole runs -/

theorem touches_eq_false_iff {keys : List κ} :
    RecencyList.touches keys e.pair = false ↔ ∀ key ∈ keys, key ∉ e.keys := by
  simp [RecencyList.touches, CacheEntry.owns_pair]

theorem Coherent.recent_add (h : c.Coherent) (hr : c.Recent n e) (hn : n + 1 < c.capacity)
    {v : α} (hadd : c.add v = .ok c') (hv : ∀ key ∈ c.keys v, key ∉ e.keys) :
    c'.Recent (n + 1) e := by
  obtain ⟨-, ha⟩ | ⟨-, -, ha⟩ | ⟨e', he', -, ht, ha⟩ | ⟨-, ha⟩ := h.add_cases v
  · rw [hadd] at ha
    cases ha
  · rw [hadd] at ha
    cases ha
    exact h.recent_append hr hn _ _
  · have hne : e ≠ e' := by
      rintro rfl
      have hmem : e ∈ c.touched (c.keys v) := by rw [ht]; exact List.mem_singleton_self _
      obtain ⟨-, key, hkey, hk⟩ := mem_touched.mp hmem
      exact hv key hkey hk
    rw [hadd] at ha
    cases ha
    exact h.recent_replace hr he' hne _ _
  · rw [hadd] at ha
    cases ha

/-- A call puts at most one entry behind an entry that it does not change, and only a use does. -/
theorem Coherent.recent_step (h : c.Coherent) (hr : c.Recent n e) {call : CacheCall κ α}
    (hn : n + (c.uses call).toNat < c.capacity) (hs : c.changes e call = false) :
    (step call c).2.Recent (n + (c.uses call).toNat) e := by
  cases call with
  | add v =>
    cases ha : c.add v with
    | error err =>
      simp only [step, ha]
      exact hr.mono (Nat.le_add_right ..)
    | ok c' =>
      have huse : c.uses (.add v) = true := by simp [uses, ha, Except.isOk, Except.toBool]
      rw [huse] at hn ⊢
      have hv : RecencyList.touches (c.keys v) e.pair = false := by
        simpa [changes, ha, Except.isOk, Except.toBool] using hs
      simp only [step, ha]
      exact h.recent_add hr hn ha (touches_eq_false_iff.mp hv)
  | get key =>
    cases ho : (c.seq? key).bind c.entry? with
    | none =>
      have hc' : (c.get key).2 = c := by rw [Cache.get, ho]
      show (c.get key).2.Recent _ e
      rw [hc']
      exact hr.mono (Nat.le_add_right ..)
    | some e' =>
      have hget : c.get key = (some e'.value, (c.drop e'.seq).push e') := by rw [Cache.get, ho]
      have huse : c.uses (.get key) = true := by simp [uses, hget]
      show (c.get key).2.Recent _ e
      rw [huse, hget]
      exact h.recent_promote hr (h.owner_some ho).1
  | delete v => exact h.recent_deleteKeys hr (touches_eq_false_iff.mp hs)
  | remove key => exact h.recent_remove hr (by simpa [changes, CacheEntry.owns_pair] using hs)
  | _ => exact hr

theorem Coherent.coherent_after (h : c.Coherent) (calls : List (CacheCall κ α)) :
    (after step calls c).Coherent ∧ (after step calls c).capacity = c.capacity := by
  have hstep : ∀ call (c' : Cache κ α), c'.Coherent ∧ c'.capacity = c.capacity →
      (step call c').2.Coherent ∧ (step call c').2.capacity = c.capacity := by
    intro call c' ⟨hc', hcap⟩
    exact ⟨(hc'.view_step call).1, (hc'.capacity_step call).trans hcap⟩
  exact after_invariant hstep calls ⟨h, rfl⟩

theorem Coherent.recent_after (h : c.Coherent) (hr : c.Recent n e) {calls : List (CacheCall κ α)}
    (hn : n + useCount calls c < c.capacity) (hs : sparedBy e calls c = true) :
    (after step calls c).Recent (n + useCount calls c) e := by
  induction calls generalizing c n with
  | nil => exact hr
  | cons call calls ih =>
    simp only [useCount, sparedBy, Bool.and_eq_true, Bool.not_eq_true'] at hn hs ⊢
    rw [← Nat.add_assoc] at hn ⊢
    refine ih (h.view_step call).1 (h.recent_step hr ?_ hs.1) ?_ hs.2
    · omega
    · rwa [h.capacity_step]

theorem Coherent.newest_of_uses (h : c.Coherent) {call : CacheCall κ α}
    (huse : c.uses call = true) :
    ∃ older e, (step call c).2.entries = older ++ [e] ∧ c.IsUsed call e := by
  cases call with
  | add v =>
    obtain ⟨-, ha⟩ | ⟨-, -, ha⟩ | ⟨e, -, -, -, ha⟩ | ⟨-, ha⟩ := h.add_cases v
    · simp [uses, ha, Except.isOk, Except.toBool] at huse
    · refine ⟨{ c with counter := c.counter + 1 }.evict.entries,
        ⟨c.counter + 1, c.keys v, v⟩, ?_, rfl, rfl⟩
      simp only [step, ha]
      exact c.entries_append (c.keys v) v
    · refine ⟨(c.drop e.seq).entries, ⟨e.seq, c.keys v, v⟩, ?_, rfl, rfl⟩
      simp only [step, ha]
      exact c.entries_replace e (c.keys v) v
    · simp [uses, ha, Except.isOk, Except.toBool] at huse
  | get key =>
    cases ho : (c.seq? key).bind c.entry? with
    | none => simp [uses, Cache.get, ho] at huse
    | some e =>
      refine ⟨(c.drop e.seq).entries, e, ?_, (h.owner_some ho).2⟩
      simp only [step, Cache.get, ho]
      rfl
  | _ => cases huse

/-- A call uses one entry only. -/
theorem Coherent.eq_of_isUsed (h : c'.Coherent) {call : CacheCall κ α} (he : e ∈ c'.entries)
    (he' : e' ∈ c'.entries) (hu : c.IsUsed call e) (hu' : c.IsUsed call e') : e = e' := by
  cases call with
  | add v =>
    obtain ⟨key, hk⟩ := List.exists_mem_of_ne_nil _ (h.keyed e he).1
    exact h.eq_of_key he he' hk (hu'.1 ▸ hu.1 ▸ hk)
  | get key => exact h.eq_of_key he he' hu hu'
  | _ => exact absurd hu id

/-- On a cache that anything was called on, an add that succeeds or a get that finds something: the
entry it has written or found is there, and whatever is called next, all keys of the entry reach it
with its value as long as fewer calls than the capacity are such adds and gets and none of them
rewrites or removes the entry. -/
theorem used_entry_stays {capacity : Nat} {keysOf : α → List κ} {calls more : List (CacheCall κ α)}
    {call : CacheCall κ α} (hc : after step calls (empty capacity keysOf) = c)
    (huse : c.uses call = true) (hc' : (step call c).2 = c') :
    (∃ e ∈ c'.entries, c.IsUsed call e) ∧
      ∀ e ∈ c'.entries, c.IsUsed call e → useCount more c' < max 1 capacity →
        sparedBy e more c' = true → ∀ key ∈ e.keys,
          ((after step more c').seq? key).bind (Cache.entry? (after step more c')) = some e ∧
            (after step more c').peek key = some e.value ∧
            ((after step more c').get key).1 = some e.value := by
  obtain ⟨hcoherent, hcapacity⟩ := (empty_coherent capacity keysOf).coherent_after calls
  rw [hc] at hcoherent hcapacity
  obtain ⟨h', hcapacity'⟩ := hcoherent.coherent_after [call]
  rw [after_cons, after_nil, hc'] at h' hcapacity'
  obtain ⟨older, newest, hentries, hnewest⟩ := hcoherent.newest_of_uses huse
  rw [hc'] at hentries
  have hmem : newest ∈ c'.entries := by
    rw [hentries]
    exact List.mem_append_right _ (List.mem_singleton_self _)
  refine ⟨⟨newest, hmem, hnewest⟩, fun e he hused hfew hspared key hk => ?_⟩
  have hrecent : c'.Recent 0 e := by
    rw [h'.eq_of_isUsed he hmem hused hnewest]
    exact ⟨older, [], hentries, Nat.le_refl 0⟩
  have hroom : 0 + useCount more c' < c'.capacity := by
    rw [Nat.zero_add, hcapacity', hcapacity, empty, Nat.max_comm]
    exact hfew
  have hmem' := (h'.recent_after hrecent hroom hspared).mem
  obtain ⟨hlater, -⟩ := h'.coherent_after more
  have howner : ((after step more c').seq? key).bind (Cache.entry? (after step more c')) =
      some e := by
    rw [hlater.seq?_of_mem hmem' hk]
    exact hlater.entry?_of_mem hmem'
  have hpeek : (after step more c').peek key = some e.value := by
    rw [Cache.peek, howner]
    rfl
  exact ⟨howner, hpeek, (fst_get _ key).trans hpeek⟩

/-! ### A run -/

namespace TwoDigits

/-- Numbers below a hundred under their two digits. -/
def digits (n : Nat) : List Nat := [n / 10, n % 10]

/-- There is room for two; 12 is the older one. -/
def held : Cache Nat Nat := after step [.add 12, .add 34] (empty 2 digits)

/-- One use only: 56 displaces 34. The other adds are refused or delete, and none reaches 12. -/
def later : List (CacheCall Nat Nat) :=
  [.add 56, .get 7, .peek 3, .add 15, .delete 78, .remove 9, .forEach fun _ => true]

/-- Read once, 12 stays under both digits. -/
theorem read_number_stays :
    held.uses (.get 1) = true ∧ useCount later (step (.get 1) held).2 = 1 ∧
      ∃ e ∈ (step (.get 1) held).2.entries, e = ⟨1, [1, 2], 12⟩ ∧
        (after step later (step (.get 1) held).2).peek 1 = some 12 ∧
        (after step later (step (.get 1) held).2).peek 2 = some 12 := by
  have huse : held.uses (.get 1) = true := by decide +kernel
  have hcount : useCount later (step (.get 1) held).2 = 1 := by decide +kernel
  have hmem : (⟨1, [1, 2], 12⟩ : CacheEntry Nat Nat) ∈ (step (.get 1) held).2.entries := by
    decide +kernel
  have hfew : useCount later (step (.get 1) held).2 < max 1 2 := by
    rw [hcount]
    decide
  have hspared : sparedBy ⟨1, [1, 2], 12⟩ later (step (.get 1) held).2 = true := by decide +kernel
  have hheld : after step [.add 12, .add 34] (empty 2 digits) = held := rfl
  have hstays := (used_entry_stays hheld huse rfl).2 _ hmem (show (1 : Nat) ∈ [1, 2] by decide)
    hfew hspared
  exact ⟨huse, hcount, _, hmem, rfl, (hstays 1 (by decide)).2.1, (hstays 2 (by decide)).2.1⟩

/-- Two uses are too many. -/
example : (after step [.get 1, .add 56, .add 78] held).peek 1 = none := by decide +kernel

end TwoDigits

end TenantSchema.Cache
