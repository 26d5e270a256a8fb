/-!
# Version
-/

namespace TenantSchema

/-- The version of the library. -/
def version : String := "0.4.2"

end TenantSchema
