import TenantSchema.Text.Ranges

/-!
# Blanks, trimming and words

A blank is a character with the property White_Space. `trim` removes blanks at both ends, `pieces`
cuts at every separator, and `words` are the non-empty pieces between blanks.
-/

namespace TenantSchema.Text

/-- Closed ranges of the code points with the property White_Space. -/
def blankRanges : List (Nat × Nat) := [
  (0x9, 0xD), (0x20, 0x20), (0x85, 0x85), (0xA0, 0xA0), (0x1680, 0x1680), (0x2000, 0x200A),
  (0x2028, 0x2029), (0x202F, 0x202F), (0x205F, 0x205F), (0x3000, 0x3000)]

def isBlank (c : Char) : Bool := inRanges blankRanges c

def trimChars (cs : List Char) : List Char :=
  ((cs.dropWhile isBlank).reverse.dropWhile isBlank).reverse

def trim (s : String) : String := String.ofList (trimChars s.toList)

/-- The trimmed text, or nothing when only blanks remain. -/
def nonBlank? (s : String) : Option String :=
  match trimChars s.toList with
  | [] => none
  | cs => some (String.ofList cs)

/-- The pieces between separators; `n` separators give `n + 1` pieces, empty ones included. -/
def pieces {α : Type} (sep : α → Bool) : List α → List (List α)
  | [] => [[]]
  | a :: rest =>
    if sep a then [] :: pieces sep rest
    else
      match pieces sep rest with
      | [] => [[a]]
      | piece :: more => (a :: piece) :: more

/-- Maximal runs without a blank. -/
def words (cs : List Char) : List (List Char) := (pieces isBlank cs).filter (!·.isEmpty)

/-! ### Laws -/

@[simp] theorem trimChars_nil : trimChars [] = [] := rfl

theorem pieces_ne_nil {α : Type} (sep : α → Bool) (l : List α) : pieces sep l ≠ [] := by
  induction l with
  | nil => simp [pieces]
  | cons a rest ih =>
    rw [pieces]
    split
    · simp
    · split <;> simp

/-- Text is cut at a separator into the pieces before it and those behind it. -/
theorem pieces_append {α : Type} {sep : α → Bool} {s : α} (hs : sep s = true) (front back : List α) :
    pieces sep (front ++ s :: back) = pieces sep front ++ pieces sep back := by
  induction front with
  | nil => simp [pieces, hs]
  | cons a rest ih =>
    rw [List.cons_append, pieces, pieces, ih]
    split
    · rfl
    · cases hrest : pieces sep rest with
      | nil => exact absurd hrest (pieces_ne_nil sep rest)
      | cons piece more => rfl

theorem words_append {b : Char} (hb : isBlank b = true) (front back : List Char) :
    words (front ++ b :: back) = words front ++ words back := by
  rw [words, pieces_append hb, List.filter_append]
  rfl

end TenantSchema.Text
