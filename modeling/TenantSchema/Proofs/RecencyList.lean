import TenantSchema.Proofs.CacheCoherent
import TenantSchema.Proofs.Runs

/-!
# Caches as recency lists

What a cache is, seen from outside: a plain list of values under sets of keys, the least recently
used first. There is no index and there are no numbers; every operation looks for keys in the whole
list. Main statement: calls to a cache are answered as calls to the list are.
-/

namespace TenantSchema

/-- Values under sets of keys, the least recently used first. -/
structure RecencyList (κ α : Type) where
  /-- The keys under which a value wants to be reached. -/
  keysOf : α → List κ
  /-- The most entries that there can be. -/
  limit : Nat
  entries : List (List κ × α) := []

namespace RecencyList

variable {κ α : Type} [DecidableEq κ]

def empty (capacity : Nat) (keysOf : α → List κ) : RecencyList κ α :=
  { keysOf, limit := max 1 capacity }

/-- The entry is reached by the key. -/
def owns (key : κ) (e : List κ × α) : Bool := decide (key ∈ e.1)

/-- The entry is reached by one of the keys. -/
def touches (keys : List κ) (e : List κ × α) : Bool := keys.any (owns · e)

@[simp] theorem touches_nil (e : List κ × α) : touches [] e = false := rfl

theorem touches_cons (key : κ) (keys : List κ) (e : List κ × α) :
    touches (key :: keys) e = (owns key e || touches keys e) := rfl

/-- A value that touches no entry is appended, after the oldest entry is dropped from a full list. A
value that touches one entry takes its place and is the newest then; one that touches more is
refused, with those of its keys that are taken. -/
def add (l : RecencyList κ α) (v : α) : Except (CacheError κ) (RecencyList κ α) :=
  match (l.keysOf v).eraseDups with
  | [] => .error .noKeys
  | key :: more =>
    let keys := key :: more
    match l.entries.filter (touches keys) with
    | [] =>
      let kept := if l.entries.length < l.limit then l.entries else l.entries.tail
      .ok { l with entries := kept ++ [(keys, v)] }
    | [_] => .ok { l with entries := l.entries.filter (!touches keys ·) ++ [(keys, v)] }
    | _ => .error (.keysReserved (keys.filter fun key => l.entries.any (owns key)))

def peek (l : RecencyList κ α) (key : κ) : Option α := (l.entries.find? (owns key)).map (·.2)

/-- The entry of the key moves behind all others. -/
def get (l : RecencyList κ α) (key : κ) : Option α × RecencyList κ α :=
  (l.peek key,
    { l with entries := l.entries.filter (!owns key ·) ++ l.entries.filter (owns key) })

def remove (l : RecencyList κ α) (key : κ) : Option α × RecencyList κ α :=
  (l.peek key, { l with entries := l.entries.filter (!owns key ·) })

/-- Drops every entry that shares a key with the value. -/
def delete (l : RecencyList κ α) (v : α) : Bool × RecencyList κ α :=
  let keys := (l.keysOf v).eraseDups
  (l.entries.any (touches keys), { l with entries := l.entries.filter (!touches keys ·) })

def forEach (l : RecencyList κ α) (more : List α → Bool) : List α :=
  visited more [] (l.entries.map (·.2))

end RecencyList

/-! ### Calls -/

inductive CacheCall (κ α : Type) where
  | add (v : α)
  | get (key : κ)
  | peek (key : κ)
  | delete (v : α)
  | remove (key : κ)
  /-- The visitor is asked after each value, with all that it has seen, whether to go on. -/
  | forEach (more : List α → Bool)
  | size
  | capacity

inductive CacheAnswer (κ α : Type) where
  | added (outcome : Except (CacheError κ) Unit)
  | value (v : Option α)
  | deleted (any : Bool)
  | seen (vs : List α)
  | number (n : Nat)

section Steps

variable {κ α : Type} [DecidableEq κ]

/-- The answer to a refused `add` comes with the cache as it was. -/
def Cache.step : CacheCall κ α → StateM (Cache κ α) (CacheAnswer κ α)
  | .add v => fun c =>
    match c.add v with
    | .ok c' => (.added (.ok ()), c')
    | .error e => (.added (.error e), c)
  | .get key => fun c => (.value (c.get key).1, (c.get key).2)
  | .peek key => fun c => (.value (c.peek key), c)
  | .delete v => fun c => (.deleted (c.delete v).1, (c.delete v).2)
  | .remove key => fun c => (.value (c.remove key).1, (c.remove key).2)
  | .forEach more => fun c => (.seen (c.forEach more), c)
  | .size => fun c => (.number c.size, c)
  | .capacity => fun c => (.number c.capacity, c)

def RecencyList.step : CacheCall κ α → StateM (RecencyList κ α) (CacheAnswer κ α)
  | .add v => fun l =>
    match l.add v with
    | .ok l' => (.added (.ok ()), l')
    | .error e => (.added (.error e), l)
  | .get key => fun l => (.value (l.get key).1, (l.get key).2)
  | .peek key => fun l => (.value (l.peek key), l)
  | .delete v => fun l => (.deleted (l.delete v).1, (l.delete v).2)
  | .remove key => fun l => (.value (l.remove key).1, (l.remove key).2)
  | .forEach more => fun l => (.seen (l.forEach more), l)
  | .size => fun l => (.number l.entries.length, l)
  | .capacity => fun l => (.number l.limit, l)

end Steps

/-! ### The cache as a list -/

section View

variable {κ α : Type} [DecidableEq κ] {c : Cache κ α} {e : CacheEntry κ α}

/-- An entry without its number. -/
def CacheEntry.pair (e : CacheEntry κ α) : List κ × α := (e.keys, e.value)

theorem CacheEntry.owns_pair (key : κ) : RecencyList.owns key e.pair = decide (key ∈ e.keys) := rfl

/-- A cache without its index and its numbers. -/
def Cache.view (c : Cache κ α) : RecencyList κ α :=
  { keysOf := c.keysOf, limit := c.capacity, entries := c.entries.map (·.pair) }

namespace Cache

omit [DecidableEq κ] in
theorem filter_view (c : Cache κ α) (p : List κ × α → Bool) :
    c.view.entries.filter p = (c.entries.filter (p ∘ CacheEntry.pair)).map (·.pair) :=
  List.filter_map

theorem touched_view (c : Cache κ α) (keys : List κ) :
    c.view.entries.filter (RecencyList.touches keys) = (c.touched keys).map (·.pair) :=
  c.filter_view _

theorem Coherent.view_peek (h : c.Coherent) (key : κ) : c.view.peek key = c.peek key := by
  show ((c.entries.map (·.pair)).find? (RecencyList.owns key)).map (·.2) =
    ((c.seq? key).bind c.entry?).map (·.value)
  rw [List.find?_map, h.owner_eq_find?, Option.map_map]
  rfl

theorem mem_touched_iff {keys : List κ} :
    e ∈ c.touched keys ↔ e ∈ c.entries ∧ RecencyList.touches keys e.pair = true :=
  List.mem_filter

/-- The entry of a key and the others. -/
theorem Coherent.filter_owner (h : c.Coherent) {key : κ} (he : e ∈ c.entries)
    (hk : key ∈ e.keys) : c.view.entries.filter (RecencyList.owns key) = [e.pair] := by
  rw [filter_view, filter_eq_singleton_of_unique h.distinct.of_map he]
  · rfl
  · simpa [CacheEntry.owns_pair] using hk
  · intro e' he' hk'
    exact h.eq_of_key he' he (by simpa [CacheEntry.owns_pair] using hk') hk

theorem Coherent.filter_others (h : c.Coherent) {key : κ} (he : e ∈ c.entries)
    (hk : key ∈ e.keys) :
    c.view.entries.filter (!RecencyList.owns key ·) = (c.drop e.seq).entries.map (·.pair) := by
  rw [filter_view, h.drop_eq_filter he hk]
  rfl

theorem Coherent.not_owns (h : c.Coherent) {key : κ}
    (hn : (c.seq? key).bind c.entry? = none) :
    ∀ p ∈ c.view.entries, RecencyList.owns key p = false := by
  intro p hp
  obtain ⟨e, he, rfl⟩ := List.mem_map.mp hp
  rw [h.owner_eq_find?, List.find?_eq_none] at hn
  simpa [CacheEntry.owns_pair] using hn e he

/-- A key that reaches nothing leaves the list as it is. -/
theorem Coherent.filter_unowned (h : c.Coherent) {key : κ}
    (hn : (c.seq? key).bind c.entry? = none) :
    c.view.entries.filter (RecencyList.owns key) = [] ∧
      c.view.entries.filter (!RecencyList.owns key ·) = c.view.entries := by
  have howns := h.not_owns hn
  constructor
  · rw [List.filter_eq_nil_iff]
    intro p hp
    simp [howns p hp]
  · rw [List.filter_eq_self]
    intro p hp
    simp [howns p hp]

/-- A used key is answered like a key that is only looked at. -/
theorem fst_get (c : Cache κ α) (key : κ) : (c.get key).1 = c.peek key := by
  unfold Cache.get Cache.peek
  cases (c.seq? key).bind c.entry? <;> rfl

theorem fst_remove (c : Cache κ α) (key : κ) : (c.remove key).1 = c.peek key := by
  unfold Cache.remove Cache.peek
  cases (c.seq? key).bind c.entry? <;> rfl

theorem Coherent.view_get (h : c.Coherent) (key : κ) :
    c.view.get key = ((c.get key).1, (c.get key).2.view) := by
  rw [fst_get, ← h.view_peek]
  refine Prod.ext rfl ?_
  unfold Cache.get
  cases ho : (c.seq? key).bind c.entry? with
  | none =>
    obtain ⟨h1, h2⟩ := h.filter_unowned ho
    simp [RecencyList.get, h1, h2]
  | some e =>
    obtain ⟨he, hk⟩ := h.owner_some ho
    simp only [RecencyList.get]
    rw [h.filter_owner he hk, h.filter_others he hk]
    simp [view, push, drop]

theorem Coherent.view_remove (h : c.Coherent) (key : κ) :
    c.view.remove key = ((c.remove key).1, (c.remove key).2.view) := by
  rw [fst_remove, ← h.view_peek]
  refine Prod.ext rfl ?_
  unfold Cache.remove
  cases ho : (c.seq? key).bind c.entry? with
  | none =>
    obtain ⟨-, h2⟩ := h.filter_unowned ho
    simp [RecencyList.remove, h2]
  | some e =>
    obtain ⟨he, hk⟩ := h.owner_some ho
    simp only [RecencyList.remove]
    rw [h.filter_others he hk]
    rfl

theorem Coherent.view_append (h : c.Coherent) {keys : List κ} (v : α) :
    (c.append keys v).view =
      { c.view with
        entries := (if c.view.entries.length < c.view.limit then c.view.entries
          else c.view.entries.tail) ++ [(keys, v)] } := by
  have hc := (h.count (Nat.le_succ c.counter)).entries_evict
  unfold Cache.append
  simp only [view, push, keysOf_indexAll, capacity_indexAll, entries_indexAll, keysOf_evict,
    capacity_evict, hc, List.length_map]
  split_ifs <;> simp [CacheEntry.pair, List.map_tail]

theorem Coherent.view_replace (h : c.Coherent) (he : e ∈ c.entries) {keys : List κ}
    (ht : c.touched keys = [e]) (v : α) :
    (c.replace e keys v).view =
      { c.view with
        entries := c.view.entries.filter (!RecencyList.touches keys ·) ++ [(keys, v)] } := by
  -- the keys touch this entry alone, so dropping what they touch is dropping it
  have hd : (c.drop e.seq).entries =
      c.entries.filter ((!RecencyList.touches keys ·) ∘ CacheEntry.pair) := by
    refine List.filter_congr fun e' he' => ?_
    have hm : RecencyList.touches keys e'.pair = true ↔ e' = e := by
      have hmem : e' ∈ c.touched keys ↔ e' = e := by rw [ht, List.mem_singleton]
      rw [← hmem, mem_touched_iff]
      exact ⟨fun hp => ⟨he', hp⟩, fun hp => hp.2⟩
    by_cases hs : e' = e
    · subst hs
      simp [Function.comp, hm.mpr rfl]
    · have hp : RecencyList.touches keys e'.pair = false := by
        simpa using fun hp => hs (hm.mp hp)
      have hne : e'.seq ≠ e.seq := fun heq => hs (h.eq_of_seq he' he heq)
      simp [Function.comp, hp, hne]
  rw [filter_view, ← hd]
  unfold Cache.replace
  simp [view, push, unindex, drop, CacheEntry.pair]

theorem Coherent.any_owns (h : c.Coherent) (key : κ) :
    c.view.entries.any (RecencyList.owns key) = (c.seq? key).isSome := by
  cases hs : c.seq? key with
  | none =>
    have hn : ∀ p ∈ c.view.entries, RecencyList.owns key p = false :=
      h.not_owns (by rw [hs]; rfl)
    simpa using hn
  | some seq =>
    obtain ⟨e, he, -, hk⟩ := (h.reach _ _).mp hs
    rw [Option.isSome_some, List.any_eq_true]
    exact ⟨e.pair, List.mem_map_of_mem he, by simpa [CacheEntry.owns_pair] using hk⟩

theorem Coherent.view_add (h : c.Coherent) (v : α) : c.view.add v = (c.add v).map view := by
  have hkeys : (c.view.keysOf v).eraseDups = c.keys v := rfl
  have ht' := c.touched_view (c.keys v)
  unfold RecencyList.add
  rw [hkeys]
  obtain ⟨hk, hc⟩ | ⟨hk, ht, hc⟩ | ⟨e, he, hk, ht, hc⟩ | ⟨ht, hc⟩ := h.add_cases v
  · rw [hc, hk]
    rfl
  · rw [hc]
    cases hkv : c.keys v with
    | nil => exact absurd hkv hk
    | cons key more =>
      rw [hkv] at ht ht'
      simp only [ht', ht, List.map_nil, Except.map, h.view_append]
  · rw [hc]
    cases hkv : c.keys v with
    | nil => exact absurd hkv hk
    | cons key more =>
      rw [hkv] at ht ht'
      simp only [ht', ht, List.map_cons, List.map_nil, Except.map, h.view_replace he ht]
  · rw [hc]
    cases hkv : c.keys v with
    | nil =>
      rw [hkv] at ht
      simp [touched] at ht
    | cons key more =>
      rw [hkv] at ht ht'
      cases htc : c.touched (key :: more) with
      | nil => simp [htc] at ht
      | cons e rest =>
        cases rest with
        | nil => simp [htc] at ht
        | cons e' rest => simp only [ht', htc, List.map_cons, Except.map, h.any_owns]

/-- Deleting key by key drops all that the keys touch together. -/
theorem Coherent.view_deleteKeys (h : c.Coherent) (keys : List κ) :
    (c.deleteKeys keys).1 = c.view.entries.any (RecencyList.touches keys) ∧
      (c.deleteKeys keys).2.view =
        { c.view with entries := c.view.entries.filter (!RecencyList.touches keys ·) } := by
  induction keys generalizing c with
  | nil =>
    have h1 : c.view.entries.any (RecencyList.touches []) = false := by simp
    have h2 : c.view.entries.filter (!RecencyList.touches [] ·) = c.view.entries := by simp
    rw [h1, h2]
    exact ⟨rfl, rfl⟩
  | cons key rest ih =>
    obtain ⟨ih1, ih2⟩ := ih (h.deleteKey key)
    have hr := h.view_remove key
    have hview : (c.deleteKey key).2.view =
        { c.view with entries := c.view.entries.filter (!RecencyList.owns key ·) } :=
      (congrArg Prod.snd hr).symm
    have hfirst : (c.deleteKey key).1 = c.view.entries.any (RecencyList.owns key) := by
      show (c.remove key).1.isSome = _
      rw [fst_remove, ← h.view_peek, Bool.eq_iff_iff]
      simp [RecencyList.peek, List.find?_isSome]
    -- the later keys look at what the first one has left
    rw [hview] at ih1 ih2
    constructor
    · show ((c.deleteKey key).1 || ((c.deleteKey key).2.deleteKeys rest).1) = _
      rw [ih1, hfirst, List.any_filter, Bool.eq_iff_iff]
      simp only [Bool.or_eq_true, List.any_eq_true, Bool.and_eq_true, Bool.not_eq_true',
        RecencyList.touches_cons]
      constructor
      · rintro (⟨p, hp, ho⟩ | ⟨p, hp, -, ht⟩)
        · exact ⟨p, hp, .inl ho⟩
        · exact ⟨p, hp, .inr ht⟩
      · rintro ⟨p, hp, ho | ht⟩
        · exact .inl ⟨p, hp, ho⟩
        · cases ho : RecencyList.owns key p with
          | true => exact .inl ⟨p, hp, ho⟩
          | false => exact .inr ⟨p, hp, ho, ht⟩
    · show ((c.deleteKey key).2.deleteKeys rest).2.view = _
      simp only [ih2, List.filter_filter, RecencyList.touches_cons, Bool.not_or, Bool.and_comm]

theorem Coherent.view_delete (h : c.Coherent) (v : α) :
    c.view.delete v = ((c.delete v).1, (c.delete v).2.view) := by
  obtain ⟨h1, h2⟩ := h.view_deleteKeys (c.keys v)
  exact Prod.ext h1.symm h2.symm

/-- One call, made to the cache and to its list. -/
theorem Coherent.view_step (h : c.Coherent) (call : CacheCall κ α) :
    (Cache.step call c).2.Coherent ∧
      RecencyList.step call c.view = ((Cache.step call c).1, (Cache.step call c).2.view) := by
  cases call with
  | add v =>
    simp only [Cache.step, RecencyList.step, h.view_add]
    cases ha : c.add v with
    | ok c' => exact ⟨h.add ha, rfl⟩
    | error e => exact ⟨h, rfl⟩
  | get key => exact ⟨h.get key, by simp only [Cache.step, RecencyList.step, h.view_get]⟩
  | peek key => exact ⟨h, by simp only [Cache.step, RecencyList.step, h.view_peek]⟩
  | delete v => exact ⟨h.delete v, by simp only [Cache.step, RecencyList.step, h.view_delete]⟩
  | remove key =>
    exact ⟨h.remove key, by simp only [Cache.step, RecencyList.step, h.view_remove]⟩
  | forEach more =>
    have hv : c.view.entries.map (·.2) = c.toList := by
      show (c.entries.map (·.pair)).map (·.2) = _
      rw [List.map_map]
      rfl
    refine ⟨h, ?_⟩
    simp only [Cache.step, RecencyList.step, RecencyList.forEach, forEach, hv]
  | size =>
    refine ⟨h, ?_⟩
    simp only [Cache.step, RecencyList.step, view, List.length_map, size]
  | capacity => exact ⟨h, rfl⟩

end Cache

end View

section Refinement

variable {κ α : Type} [DecidableEq κ]

theorem RecencyList.limit_step (call : CacheCall κ α) (l : RecencyList κ α) :
    (step call l).2.limit = l.limit := by
  cases call with
  | add v =>
    simp only [step, add]
    split
    · next ha =>
      split at ha
      · cases ha
      · split at ha <;> cases ha <;> rfl
    · rfl
  | _ => rfl

omit [DecidableEq κ] in
theorem Cache.view_empty (capacity : Nat) (keysOf : α → List κ) :
    (Cache.empty capacity keysOf).view = RecencyList.empty capacity keysOf := by
  simp [Cache.empty, Cache.view, RecencyList.empty, Nat.max_comm]

/-- Whatever is called on a new cache, the answers are those of a recency list that starts empty,
and the cache stays that list, which never holds more than it may. -/
theorem cache_refines_recencyList (capacity : Nat) (keysOf : α → List κ)
    (calls : List (CacheCall κ α)) :
    (answers Cache.step calls (Cache.empty capacity keysOf)).1 =
        (answers RecencyList.step calls (RecencyList.empty capacity keysOf)).1 ∧
      (after Cache.step calls (Cache.empty capacity keysOf)).view =
        after RecencyList.step calls (RecencyList.empty capacity keysOf) ∧
      (after RecencyList.step calls (RecencyList.empty capacity keysOf)).entries.length ≤
        max 1 capacity := by
  have hc := Cache.empty_coherent capacity keysOf
  have hstep := fun call (c : Cache κ α) (h : c.Coherent) => h.view_step call
  have hrun := answers_simulation hstep calls hc
  rw [Cache.view_empty] at hrun
  have hview : after RecencyList.step calls (RecencyList.empty capacity keysOf) =
      (after Cache.step calls (Cache.empty capacity keysOf)).view := congrArg Prod.snd hrun
  refine ⟨(congrArg Prod.fst hrun).symm, hview.symm, ?_⟩
  have hlimit : (after RecencyList.step calls (RecencyList.empty capacity keysOf)).limit =
      max 1 capacity :=
    after_invariant (fun call l hl => (RecencyList.limit_step call l).trans hl) calls rfl
  have hbound := (after_invariant (fun call c h => (hstep call c h).1) calls hc).bound
  rw [← hlimit, hview]
  simpa [Cache.view] using hbound

end Refinement

end TenantSchema
