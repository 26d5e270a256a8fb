import Mathlib.Data.List.Nodup
import Mathlib.Data.List.Perm.Basic

/-!
# Association lists

The first pair of a key is its value. What `filter` and a pair put in front do to `List.lookup`, and
when `lookup` is membership.
-/

namespace TenantSchema

section Lookup

variable {κ α : Type} [DecidableEq κ]

theorem mem_of_lookup {l : List (κ × α)} {k : κ} {a : α} (h : l.lookup k = some a) :
    (k, a) ∈ l := by
  obtain ⟨l₁, l₂, rfl, -⟩ := List.lookup_eq_some_iff.mp h
  simp

/-- Pairs of other keys do not matter. -/
theorem lookup_filter {l : List (κ × α)} {p : κ × α → Bool} {k : κ}
    (h : ∀ e ∈ l, e.1 = k → p e = true) : (l.filter p).lookup k = l.lookup k := by
  induction l with
  | nil => rfl
  | cons e l ih =>
    obtain ⟨k', a⟩ := e
    have ih := ih fun e he => h e (List.mem_cons_of_mem _ he)
    by_cases hk : k' = k
    · subst hk
      rw [List.filter_cons_of_pos (h _ List.mem_cons_self rfl)]
      simp
    · have hk' : (k == k') = false := beq_eq_false_iff_ne.mpr (Ne.symm hk)
      cases hp : p (k', a) with
      | true => simp [hp, List.lookup_cons, hk', ih]
      | false => simp [hp, List.lookup_cons, hk', ih]

theorem lookup_filter_ne_self (l : List (κ × α)) (k : κ) :
    (l.filter (·.1 ≠ k)).lookup k = none := by
  rw [List.lookup_eq_none_iff]
  intro e he
  have hne : e.1 ≠ k := by simpa using (List.mem_filter.mp he).2
  simpa using hne.symm

theorem lookup_filter_ne {l : List (κ × α)} {k k' : κ} (h : k' ≠ k) :
    (l.filter (·.1 ≠ k)).lookup k' = l.lookup k' :=
  lookup_filter fun e _ he => by simpa [he] using h

/-- A value put in place of what its key had before. -/
theorem lookup_put (l : List (κ × α)) (k k' : κ) (a : α) :
    ((k, a) :: l.filter (·.1 ≠ k)).lookup k' = if k' = k then some a else l.lookup k' := by
  by_cases h : k' = k
  · simp [h]
  · have h' : (k' == k) = false := beq_eq_false_iff_ne.mpr h
    rw [List.lookup_cons, h', if_neg h]
    exact lookup_filter_ne h

theorem lookup_eq_some_iff_mem {l : List (κ × α)} (h : (l.map Prod.fst).Nodup) {k : κ} {a : α} :
    l.lookup k = some a ↔ (k, a) ∈ l := by
  refine ⟨mem_of_lookup, fun hm => ?_⟩
  induction l with
  | nil => simp at hm
  | cons e l ih =>
    rw [List.map_cons, List.nodup_cons] at h
    rcases List.mem_cons.mp hm with rfl | hl
    · simp
    · obtain ⟨k', b⟩ := e
      have hk : k ≠ k' := by
        rintro rfl
        exact h.1 (List.mem_map.mpr ⟨_, hl, rfl⟩)
      have hk' : (k == k') = false := beq_eq_false_iff_ne.mpr hk
      simp [List.lookup_cons, hk', ih h.2 hl]

omit [DecidableEq κ] in
theorem nodup_keys_filter {l : List (κ × α)} (h : (l.map Prod.fst).Nodup) (p : κ × α → Bool) :
    ((l.filter p).map Prod.fst).Nodup :=
  h.sublist (List.filter_sublist.map Prod.fst)

theorem nodup_keys_put {l : List (κ × α)} (h : (l.map Prod.fst).Nodup) (k : κ) (a : α) :
    (((k, a) :: l.filter (·.1 ≠ k)).map Prod.fst).Nodup := by
  rw [List.map_cons, List.nodup_cons]
  refine ⟨?_, nodup_keys_filter h _⟩
  simp

end Lookup

/-- The only item with a property is the first one with it. -/
theorem find?_eq_some_of_unique {α : Type} {p : α → Bool} {l : List α} {a : α} (ha : a ∈ l)
    (hp : p a = true) (hu : ∀ b ∈ l, p b = true → b = a) : l.find? p = some a := by
  cases hf : l.find? p with
  | none => exact absurd hp (List.find?_eq_none.mp hf a ha)
  | some b => rw [hu b (List.mem_of_find?_eq_some hf) (List.find?_some hf)]

theorem filter_eq_singleton_of_unique {α : Type} {p : α → Bool} {l : List α} (hn : l.Nodup) {a : α}
    (ha : a ∈ l) (hp : p a = true) (hu : ∀ b ∈ l, p b = true → b = a) : l.filter p = [a] := by
  refine List.perm_singleton.mp ((List.perm_ext_iff_of_nodup (hn.filter p) (by simp)).mpr ?_)
  intro b
  rw [List.mem_filter, List.mem_singleton]
  constructor
  · rintro ⟨hb, hpb⟩
    exact hu b hb hpb
  · rintro rfl
    exact ⟨ha, hp⟩

section Dups

variable {α : Type} [DecidableEq α]

theorem nodup_eraseDups : ∀ l : List α, l.eraseDups.Nodup
  | [] => by simp
  | a :: l => by
    rw [List.eraseDups_cons, List.nodup_cons]
    refine ⟨?_, nodup_eraseDups _⟩
    simp [List.mem_eraseDups]
termination_by l => l.length
decreasing_by
  have := List.length_filter_le (fun b => !b == a) l
  simp only [List.length_cons]
  omega

end Dups

end TenantSchema
