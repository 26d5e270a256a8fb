import TenantSchema.Text.AlphanumericTable
import TenantSchema.Text.Ranges

/-!
# Names

A name is a non-empty sequence of letters, digits and underscores of any script.
-/

namespace TenantSchema.Text

def isAlphanumeric (c : Char) : Bool := inRanges alphanumericRanges c || c.isAlphanum

/-- The text is usable as a field name. -/
def isWord (s : String) : Bool :=
  !s.toList.isEmpty && s.toList.all fun c => isAlphanumeric c || c = '_'

end TenantSchema.Text
