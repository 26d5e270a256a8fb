import TenantSchema.Spec.Basic

/-!
# Building specs

Small steps that make a spec out of another one.
-/

namespace TenantSchema

namespace Bounds

def between {α : Type} (min max : α) : Bounds α := { min := some min, max := some max }

end Bounds

namespace TextLimits

def ofMaxChars (maxChars : UInt64) : TextLimits := { maxChars }

end TextLimits

namespace FieldSpec

def withTitle (f : FieldSpec) (title : String) : FieldSpec := { f with title }

def withUsage (f : FieldSpec) (usage : String) : FieldSpec := { f with usage }

def makeReadonly (f : FieldSpec) : FieldSpec := { f with readonly := true }

def makeRequired (f : FieldSpec) : FieldSpec := { f with required := true }

def makeDisabled (f : FieldSpec) : FieldSpec := { f with disabled := true }

def makeHidden (f : FieldSpec) : FieldSpec := { f with hidden := true }

end FieldSpec

namespace DatasetSpec

def withPrimary (d : DatasetSpec) (primary : String) : DatasetSpec := { d with primary }

def withDisplay (d : DatasetSpec) (display : String) : DatasetSpec := { d with display }

def withTitle (d : DatasetSpec) (title : String) : DatasetSpec := { d with title }

def withUsage (d : DatasetSpec) (usage : String) : DatasetSpec := { d with usage }

def makeExtendable (d : DatasetSpec) : DatasetSpec := { d with extendable := true }

end DatasetSpec

end TenantSchema
