/-!
# Visits

Collections hand their items to a visitor in order, until it declines to go on.
-/

namespace TenantSchema

/-- The items that a visitor has seen in the end. It is asked after each one, with all that it has
seen so far, whether to go on. -/
def visited {α : Type} (more : List α → Bool) (seen : List α) : List α → List α
  | [] => seen
  | a :: rest => if more (seen ++ [a]) then visited more (seen ++ [a]) rest else seen ++ [a]

end TenantSchema
