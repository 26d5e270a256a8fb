/-!
# Sets of characters given by ranges

A character property is a list of closed ranges of code points; membership is a scan of the list.
-/

namespace TenantSchema.Text

/-- The code point of `c` lies in one of the closed ranges. -/
def inRanges (ranges : List (Nat × Nat)) (c : Char) : Bool :=
  ranges.any fun r => decide (r.1 ≤ c.toNat) && decide (c.toNat ≤ r.2)

@[simp] theorem inRanges_nil (c : Char) : inRanges [] c = false := rfl

theorem inRanges_iff {ranges : List (Nat × Nat)} {c : Char} :
    inRanges ranges c = true ↔ ∃ r ∈ ranges, r.1 ≤ c.toNat ∧ c.toNat ≤ r.2 := by
  simp [inRanges]

end TenantSchema.Text
