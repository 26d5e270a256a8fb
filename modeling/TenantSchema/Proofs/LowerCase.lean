import TenantSchema.Text.Casing

/-!
# Lower case is final

No character is mapped to one that has another lower-case form, so that text in lower case stays as
it is. The table of the mapping is compared with itself at once: its code points and those that they
are mapped to are the bits of two numbers, which have none in common. Nor does lower case depend on
the case of ASCII letters, so that it decides alone whether names are equal.
-/

namespace TenantSchema.Text

/-! ### Code points as bits -/

/-- The number with these bits. -/
def bits (codes : List Nat) : Nat := codes.foldr (fun n m => m ||| 1 <<< n) 0

theorem testBit_bits (codes : List Nat) (n : Nat) :
    (bits codes).testBit n = true ↔ n ∈ codes := by
  induction codes with
  | nil => simp [bits]
  | cons k rest ih =>
    have hbit : (1 <<< k).testBit n = decide (k = n) := by
      rw [Nat.one_shiftLeft, Nat.testBit_two_pow]
    have hcons : bits (k :: rest) = bits rest ||| 1 <<< k := rfl
    rw [hcons, Nat.testBit_or, hbit, Bool.or_eq_true, ih, decide_eq_true_iff, List.mem_cons, or_comm,
      eq_comm]

theorem disjoint_of_bits {codes codes' : List Nat} (h : bits codes &&& bits codes' = 0) {n : Nat}
    (hn : n ∈ codes) : n ∉ codes' := by
  intro hn'
  have hboth : (bits codes &&& bits codes').testBit n = true := by
    rw [Nat.testBit_and, (testBit_bits codes n).mpr hn, (testBit_bits codes' n).mpr hn']
    rfl
  rw [h, Nat.zero_testBit] at hboth
  cases hboth

/-! ### The mapping -/

namespace CaseRun

def members (r : CaseRun) : List Nat :=
  (List.range ((r.last - r.first) / r.step + 1)).map fun i => r.first + r.step * i

theorem mem_members {r : CaseRun} {n : Nat} (h : r.holds n = true) : n ∈ r.members := by
  unfold holds at h
  simp only [Bool.and_eq_true, decide_eq_true_eq, beq_iff_eq] at h
  obtain ⟨⟨hfirst, hlast⟩, hstep⟩ := h
  refine List.mem_map.mpr ⟨(n - r.first) / r.step, ?_, ?_⟩
  · have hle : (n - r.first) / r.step ≤ (r.last - r.first) / r.step :=
      Nat.div_le_div_right (Nat.sub_le_sub_right hlast _)
    exact List.mem_range.mpr (Nat.lt_succ_of_le hle)
  · have hdiv := Nat.div_add_mod (n - r.first) r.step
    omega

/-- Where the run is mapped to. -/
def images (r : CaseRun) : List Nat := r.members.map fun n : Nat => ((n : Int) + r.shift).toNat

end CaseRun

/-- The code points with another lower-case form: two with a form of their own, the ASCII capitals
and those of the table. -/
def capitals : List Nat :=
  ['Σ'.toNat, 'İ'.toNat] ++ (List.range 26).map ('A'.toNat + ·) ++ lowerCaseRuns.flatMap (·.members)

/-- The code points that lower case is made of, as far as characters are changed or ASCII. -/
def lowered : List Nat :=
  ['ς'.toNat, 'σ'.toNat, 'i'.toNat, 0x307] ++
    (List.range 128).map (fun n => (Char.ofNat n).toLower.toNat) ++ lowerCaseRuns.flatMap (·.images)

/-- No capital is the lower-case form of another character. -/
theorem capitals_disjoint_lowered : bits lowered &&& bits capitals = 0 := by decide +kernel

/-- The character is its own lower-case form, wherever it stands. -/
structure IsLower (c : Char) : Prop where
  ne_sigma : c ≠ 'Σ'
  ne_dotted : c ≠ 'İ'
  single : lowerSingle c = c

section Characters

variable {c : Char}

theorem isLower_of_notMem_capitals (h : c.toNat ∉ capitals) : IsLower c where
  ne_sigma := by
    rintro rfl
    exact h (List.mem_append_left _ (by decide))
  ne_dotted := by
    rintro rfl
    exact h (List.mem_append_left _ (by decide))
  single := by
    unfold lowerSingle
    split
    · unfold Char.toLower
      refine dif_neg fun hrange => h (List.mem_append_left _ ?_)
      have hlow : 'A'.toNat ≤ c.toNat := hrange.1
      have hhigh : c.toNat ≤ 'Z'.toNat := hrange.2
      have hA : 'A'.toNat = 65 := rfl
      have hZ : 'Z'.toNat = 90 := rfl
      refine List.mem_append_right _ (List.mem_map.mpr ⟨c.toNat - 65, ?_, ?_⟩)
      · exact List.mem_range.mpr (by omega)
      · omega
    · have hnone : lowerCaseRuns.find? (·.holds c.toNat) = none := by
        refine List.find?_eq_none.mpr fun r hr hholds => h ?_
        exact List.mem_append_right _ (List.mem_flatMap.mpr ⟨r, hr, r.mem_members hholds⟩)
      rw [hnone]

theorem isLower_of_mem_lowered (h : c.toNat ∈ lowered) : IsLower c :=
  isLower_of_notMem_capitals (disjoint_of_bits capitals_disjoint_lowered h)

theorem isLower_ofNat {n : Nat} (h : n ∈ lowered) : IsLower (Char.ofNat n) := by
  refine isLower_of_mem_lowered ?_
  by_cases hvalid : n.isValidChar
  · have hcode : (Char.ofNat n).toNat = n := by
      unfold Char.ofNat
      rw [dif_pos hvalid]
      rfl
    rwa [hcode]
  · -- a number that is no code point is read as the first one
    have hcode : (Char.ofNat n).toNat = 0 := by
      unfold Char.ofNat
      rw [dif_neg hvalid]
      rfl
    rw [hcode]
    refine List.mem_append_left _ (List.mem_append_right _ ?_)
    exact List.mem_map.mpr ⟨0, List.mem_range.mpr (by decide), rfl⟩

theorem isLower_lowerSingle (h : c ≠ 'Σ') (h' : c ≠ 'İ') : IsLower (lowerSingle c) := by
  unfold lowerSingle
  split
  · next hascii =>
    refine isLower_of_mem_lowered (List.mem_append_left _ (List.mem_append_right _ ?_))
    exact List.mem_map.mpr ⟨c.toNat, List.mem_range.mpr hascii, by rw [Char.ofNat_toNat]⟩
  · next hwide =>
    cases hrun : lowerCaseRuns.find? (·.holds c.toNat) with
    | some r =>
      have hholds : r.holds c.toNat = true := by simpa using List.find?_some hrun
      have hmember : c.toNat ∈ r.members := r.mem_members hholds
      refine isLower_ofNat (List.mem_append_right _ (List.mem_flatMap.mpr ⟨r, ?_, ?_⟩))
      · exact List.mem_of_find?_eq_some hrun
      · exact List.mem_map_of_mem hmember
    | none =>
      refine ⟨h, h', ?_⟩
      unfold lowerSingle
      rw [if_neg hwide, hrun]

end Characters

/-! ### Text -/

section Texts

variable {before cs : List Char}

theorem isLower_of_mem_lowerFrom {c : Char} (hc : c ∈ lowerFrom before cs) : IsLower c := by
  induction cs generalizing before with
  | nil => cases hc
  | cons d rest ih =>
    rcases List.mem_append.mp hc with hfirst | hrest
    · split at hfirst
      · obtain rfl := List.mem_singleton.mp hfirst
        unfold lowerSigma
        split <;> exact isLower_of_mem_lowered (List.mem_append_left _ (by decide))
      · next hsigma =>
        split at hfirst
        · simp only [List.mem_cons, List.not_mem_nil, or_false] at hfirst
          rcases hfirst with rfl | rfl <;>
            exact isLower_of_mem_lowered (List.mem_append_left _ (by decide))
        · next hdotted =>
          obtain rfl := List.mem_singleton.mp hfirst
          exact isLower_lowerSingle hsigma hdotted
    · exact ih hrest

theorem lowerFrom_of_forall (h : ∀ c ∈ cs, IsLower c) : lowerFrom before cs = cs := by
  induction cs generalizing before with
  | nil => rfl
  | cons c rest ih =>
    obtain ⟨hsigma, hdotted, hsingle⟩ := h c List.mem_cons_self
    rw [lowerFrom, if_neg hsigma, if_neg hdotted, hsingle,
      ih fun d hd => h d (List.mem_cons_of_mem c hd)]
    rfl

end Texts

/-- Text in lower case stays as it is. -/
theorem lower_lower (s : String) : lower (lower s) = lower s := by
  unfold lower
  rw [String.toList_ofList, lowerFrom_of_forall fun _ => isLower_of_mem_lowerFrom]

/-- Every character is mapped to at least one. -/
theorem lower_eq_empty_iff {s : String} : lower s = "" ↔ s = "" := by
  constructor
  · intro h
    have hchars : lowerFrom [] s.toList = [] := by
      have hlist := congrArg String.toList h
      rwa [lower, String.toList_ofList] at hlist
    cases hs : s.toList with
    | nil => exact String.toList_eq_nil_iff.mp hs
    | cons c rest =>
      rw [hs, lowerFrom, List.append_eq_nil_iff] at hchars
      obtain ⟨hfirst, -⟩ := hchars
      split at hfirst
      · cases hfirst
      · split at hfirst <;> cases hfirst
  · rintro rfl
    exact lower_empty

/-! ### ASCII case -/

section Ascii

/-- The ASCII capital at this place of the alphabet. -/
def capital (n : Nat) : Char := Char.ofNat ('A'.toNat + n)

/-- Case makes a difference to the capitals only. -/
theorem toLower_induction {P : Char → Prop} (hcapital : ∀ n < 26, P (capital n))
    (hsame : ∀ c : Char, c.toLower = c → P c) (c : Char) : P c := by
  by_cases hrange : 'A'.toNat ≤ c.toNat ∧ c.toNat ≤ 'Z'.toNat
  · have hA : 'A'.toNat = 65 := rfl
    have hZ : 'Z'.toNat = 90 := rfl
    have hc : c = capital (c.toNat - 'A'.toNat) := by
      rw [capital, Nat.add_sub_cancel' hrange.1, Char.ofNat_toNat]
    rw [hc]
    exact hcapital _ (by omega)
  · exact hsame c (dif_neg hrange)

theorem inRanges_toLower {ranges : List (Nat × Nat)}
    (h : ∀ n < 26, inRanges ranges (capital n).toLower = inRanges ranges (capital n)) (c : Char) :
    inRanges ranges c.toLower = inRanges ranges c :=
  toLower_induction (P := fun c => inRanges ranges c.toLower = inRanges ranges c) h
    (fun _ hc => congrArg _ hc) c

theorem casedAhead_map_toLower (cs : List Char) :
    casedAhead (cs.map Char.toLower) = casedAhead cs := by
  have hignorable := inRanges_toLower (show ∀ n < 26, inRanges caseIgnorableRanges
    (capital n).toLower = inRanges caseIgnorableRanges (capital n) by decide +kernel)
  have hcased := inRanges_toLower (show ∀ n < 26, inRanges casedRanges (capital n).toLower =
    inRanges casedRanges (capital n) by decide +kernel)
  have hskip : inRanges caseIgnorableRanges ∘ Char.toLower = inRanges caseIgnorableRanges :=
    funext hignorable
  unfold casedAhead
  rw [List.dropWhile_map, hskip]
  cases cs.dropWhile (inRanges caseIgnorableRanges) with
  | nil => rfl
  | cons c rest => exact hcased c

theorem lowerSingle_toLower (c : Char) : lowerSingle c.toLower = lowerSingle c :=
  toLower_induction (P := fun c => lowerSingle c.toLower = lowerSingle c) (by decide +kernel)
    (fun _ hc => congrArg _ hc) c

theorem toLower_eq_iff {d : Char} (h : ∀ n < 26, (capital n).toLower = d ↔ capital n = d)
    (c : Char) : c.toLower = d ↔ c = d :=
  toLower_induction (P := fun c => c.toLower = d ↔ c = d) h (fun _ hc => by rw [hc]) c

/-- Lower case does not tell ASCII letters by their case, nor the places they stand in. -/
theorem lowerFrom_map_toLower (before cs : List Char) :
    lowerFrom (before.map Char.toLower) (cs.map Char.toLower) = lowerFrom before cs := by
  induction cs generalizing before with
  | nil => rfl
  | cons c rest ih =>
    have hsigma : lowerSigma (before.map Char.toLower) (rest.map Char.toLower) =
        lowerSigma before rest := by
      unfold lowerSigma
      rw [casedAhead_map_toLower, casedAhead_map_toLower]
    have hforms : (c.toLower = 'Σ' ↔ c = 'Σ') ∧ (c.toLower = 'İ' ↔ c = 'İ') :=
      ⟨toLower_eq_iff (by decide +kernel) c, toLower_eq_iff (by decide +kernel) c⟩
    rw [List.map_cons, lowerFrom, lowerFrom, hsigma, lowerSingle_toLower, ← List.map_cons, ih]
    simp only [hforms]

/-- Names are equal ignoring case if their lower case is. -/
theorem eqFold_iff {a b : String} : eqFold a b = true ↔ lower a = lower b := by
  unfold eqFold
  rw [Bool.or_eq_true, beq_iff_eq, or_iff_right_iff_imp]
  intro h
  unfold eqIgnoringAsciiCase lowerAscii at h
  rw [beq_iff_eq, String.ofList_inj] at h
  unfold lower
  rw [← lowerFrom_map_toLower [] a.toList, h, lowerFrom_map_toLower]

end Ascii

end TenantSchema.Text
