import TenantSchema.Duration.Printer
import TenantSchema.Error
import TenantSchema.Kind
import TenantSchema.Number.FloatText
import TenantSchema.Text.Quoted

/-!
# Type errors

What can be wrong with a type, with a source that it should decode, or with a value that it should
hold. Errors are causes; `message` words them, and a violation has a stable `code`. A call that has
broken down is told from them by `breakdown?`.
-/

namespace TenantSchema

open TenantSchema.Number

/-- What is wrong with the constraints of a type. -/
inductive Defect where
  | width (bits : Nat)
  | signedLower (bits : Nat) (min base : Int)
  | signedUpper (bits : Nat) (max base : Int)
  | signedRange (bits : Nat) (min max : Int)
  | unsignedLower (bits : Nat) (min base : Nat)
  | unsignedUpper (bits : Nat) (max base : Nat)
  | unsignedRange (bits : Nat) (min max : Nat)
  | floatBound (bound : Binary64)
  | floatRange (min max : Binary64)
  | durationRange (min max : Int)
  | listElement
  | lookupPath
  | lookupPrimary (path : String)
deriving DecidableEq, Repr

def Defect.message : Defect → String
  | .width bits => "unsupported bit width " ++ natText bits
  | .signedLower bits min base =>
    "int" ++ natText bits ++ ": invalid lower bound " ++ intText min ++ "; min: " ++ intText base
  | .signedUpper bits max base =>
    "int" ++ natText bits ++ ": invalid upper bound " ++ intText max ++ "; max: " ++ intText base
  | .signedRange bits min max =>
    "int" ++ natText bits ++ ": invalid range [" ++ intText min ++ ", " ++ intText max ++ "]"
  | .unsignedLower bits min base =>
    "uint" ++ natText bits ++ ": invalid lower bound " ++ natText min ++ "; max: " ++ natText base
  | .unsignedUpper bits max base =>
    "uint" ++ natText bits ++ ": invalid upper bound " ++ natText max ++ "; max: " ++ natText base
  | .unsignedRange bits min max =>
    "uint" ++ natText bits ++ ": invalid range [" ++ natText min ++ ", " ++ natText max ++ "]"
  | .floatBound bound => "bound " ++ floatText bound ++ " is not finite"
  | .floatRange min max => "invalid range [" ++ floatText min ++ ", " ++ floatText max ++ "]"
  | .durationRange min max => "invalid range [" ++ intText min ++ "s, " ++ intText max ++ "s]"
  | .listElement => "list[type] undefined"
  | .lookupPath => "lookup( path: ! ) required"
  | .lookupPrimary path => "lookup( path: " ++ Text.quoted path ++ " ) has no primary field"

/-- A value beyond the bounds of its type. Numbers are kept as the text that messages show. -/
inductive Violation where
  | signedMin (kind : SignedKind) (value : String) (min : Int)
  | signedMax (kind : SignedKind) (value : String) (max : Int)
  | unsignedMin (kind : UnsignedKind) (value : String) (min : Nat)
  | unsignedMax (kind : UnsignedKind) (value : String) (max : Nat)
  | floatFinite (kind : FloatKind) (value : Binary64)
  | floatMin (kind : FloatKind) (value min : Binary64)
  | floatMax (kind : FloatKind) (value max : Binary64)
  | binaryMaxBytes (size max : Nat)
  | textEncoding
  | textMultiline (text : String)
  | textMaxBytes (text : String) (max : Nat)
  | textMaxChars (text : String) (max : Nat)
  /-- No value stands for null. -/
  | durationMin (value : Option Duration) (min : Int)
  | durationMax (value : Duration) (max : Int)
  | lookupIdRequired
deriving DecidableEq, Repr

namespace Violation

/-- The stable code of a violation. -/
def code : Violation → String
  | .signedMin .. => "type.int.min.violation"
  | .signedMax .. => "type.int.max.violation"
  | .unsignedMin .. => "type.uint.min.violation"
  | .unsignedMax .. => "type.uint.max.violation"
  | .floatFinite .. => "type.float.finite.violation"
  | .floatMin .. => "type.float.min.violation"
  | .floatMax .. => "type.float.max.violation"
  | .binaryMaxBytes .. => "type.binary.max_bytes.violation"
  | .textEncoding => "type.string.encoding.violation"
  | .textMultiline _ => "type.string.multiline.violation"
  | .textMaxBytes .. => "type.string.max_bytes.violation"
  | .textMaxChars .. => "type.string.max_chars.violation"
  | .durationMin .. => "type.duration.min.violation"
  | .durationMax .. => "type.duration.max.violation"
  | .lookupIdRequired => "type.lookup.id.required"

/-- A text in quotes, shortened to its first characters if it is long. -/
def preview (text : String) : String :=
  let cs := text.toList
  if cs.length ≤ 16 then Text.quoted text
  else
    Text.quoted (String.ofList (cs.take 14) ++ "..(+" ++ natText (cs.length - 14) ++ ")")

/-- A bound in seconds, or the nearest span there is. -/
def boundText (seconds : Int) : String :=
  let longest := maxDuration / Duration.second
  ((Duration.ofSeconds? (max (-longest) (min seconds longest))).getD .zero).print

/-- A number below or above a bound. -/
def outOfBound (kind value side bound : String) : String :=
  kind ++ ": invalid value: " ++ value ++ "; " ++ side ++ ": " ++ bound

def message : Violation → String
  | .signedMin kind value min => outOfBound kind.name value "min" (intText min)
  | .signedMax kind value max => outOfBound kind.name value "max" (intText max)
  | .unsignedMin kind value min => outOfBound kind.name value "min" (natText min)
  | .unsignedMax kind value max => outOfBound kind.name value "max" (natText max)
  | .floatFinite kind value =>
    kind.name ++ ": value " ++ floatText value ++ " is not representable"
  | .floatMin kind value min => outOfBound kind.name (floatText value) "min" (floatText min)
  | .floatMax kind value max => outOfBound kind.name (floatText value) "max" (floatText max)
  | .binaryMaxBytes size max =>
    "binary value of " ++ natText size ++ " bytes violates max boundary of: " ++ natText max ++
      " bytes"
  | .textEncoding => "string value is not valid utf-8"
  | .textMultiline text => "string " ++ preview text ++ " violates multiline constraint"
  | .textMaxBytes text max =>
    "string " ++ preview text ++ " violates max boundary of: " ++ natText max ++ " bytes"
  | .textMaxChars text max =>
    "string " ++ preview text ++ " violates max boundary of: " ++ natText max ++ " characters"
  | .durationMin value min =>
    "duration value " ++ (value.map Duration.print).getD "null" ++
      " violates min boundary of " ++ boundText min
  | .durationMax value max =>
    "duration value " ++ value.print ++ " violates max boundary of " ++ boundText max
  | .lookupIdRequired => "lookup( id: ! ); required"

end Violation

inductive TypeError where
  /-- A value of another type. -/
  | convert (label : String) (kind : Kind)
  /-- A wire object or array where a scalar is needed. -/
  | unsupportedTag (tag : String) (kind : Kind)
  | parse (input : String) (kind : Kind)
  | inexact (value : String) (kind : Kind)
  | violation (v : Violation)
  | descriptor (kind : Kind) (defect : Defect)
  | noType
  | undefined (cause : String)
  | lookupUnresolved (path : String)
  /-- The id of a reference does not suit the dictionary referred to. -/
  | lookupId (id : String) (cause : TypeError)
  /-- Nothing is reported: the call has broken down. -/
  | breakdown (b : Breakdown)
deriving DecidableEq, Repr

namespace TypeError

/-- How the call has broken down, at any depth of references. -/
def breakdown? : TypeError → Option Breakdown
  | .breakdown b => some b
  | .lookupId _ cause => cause.breakdown?
  | _ => none

def errorClass : TypeError → ErrorClass
  | .convert .. => .conversion
  | .unsupportedTag .. => .conversion
  | .parse .. => .conversion
  | .inexact .. => .conversion
  | .violation _ => .constraintViolation
  | .descriptor .. => .structural
  | .noType => .structural
  | .undefined _ => .structural
  | .lookupUnresolved _ => .structural
  | .lookupId _ cause => cause.errorClass
  | .breakdown _ => .internal

/-- The code of a violation, at any depth of references. -/
def code : TypeError → Option String
  | .violation v => some v.code
  | .lookupId _ cause => cause.code
  | _ => none

def message : TypeError → String
  | .convert label kind => "cannot convert " ++ label ++ " into " ++ kind.name
  | .unsupportedTag tag kind => "cannot convert wire " ++ tag ++ " into " ++ kind.name
  | .parse input kind => "cannot parse " ++ Text.quoted input ++ " as " ++ kind.name
  | .inexact value kind => "cannot convert " ++ value ++ " into " ++ kind.name ++ " without loss"
  | .violation v => v.message
  | .descriptor kind defect => kind.name ++ ": invalid descriptor; " ++ defect.message
  | .noType => "type undefined"
  | .undefined cause => "type undefined; " ++ cause
  | .lookupUnresolved path => "lookup( path: " ++ Text.quoted path ++ " ) not found"
  | .lookupId id cause => "lookup( id: " ++ id ++ " ); " ++ cause.message
  | .breakdown b => b.message

def toError (e : TypeError) : Error :=
  { errorClass := e.errorClass, origin := .type, code := e.code, message := e.message }

end TypeError

end TenantSchema
