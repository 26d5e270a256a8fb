import TenantSchema.Calendar.InternetDate
import TenantSchema.Calendar.LayoutWriter
import TenantSchema.Calendar.Timestamp
import TenantSchema.Duration.Literal
import TenantSchema.Spec.Basic
import TenantSchema.Type.Scalar

/-!
# Date and duration types

A date type reads text in several notations, its own layout among them, and numbers by magnitude. A
duration type reads numbers as seconds and text as a literal; its bounds are whole seconds.
-/

namespace TenantSchema

open TenantSchema.Number TenantSchema.Calendar

/-! ### Dates -/

/-- Layout of a type that configures none. -/
def defaultLayout : String := "%Y-%m-%d %H:%M:%S"

/-- Timestamps with an offset, as `2024-11-18 17:37:43.527 +0000`. -/
def extendedLayout : String := "%Y-%m-%d %H:%M:%S%.f %z"

def fractionalLayout : String := "%Y-%m-%d %H:%M:%S%.f"

/-- The text without a zone name behind the offset, which tells nothing new. -/
def dropZoneName (text : String) : String :=
  let cs := text.toList
  let zone := (cs.reverse.takeWhile (· ≠ ' ')).reverse
  let head := cs.take (cs.length - zone.length - 1)
  if zone.length < cs.length && 2 ≤ head.count ' ' && !zone.isEmpty && zone.all Char.isAlpha then
    String.ofList head
  else text

/-- `part` occurs in the text. -/
def hasInfix (part : List Char) : List Char → Bool
  | [] => part.isEmpty
  | c :: rest => part.isPrefixOf (c :: rest) || hasInfix part rest

/-- The layout asks for an offset. -/
def layoutHasOffset (layout : String) : Bool :=
  hasInfix ['%', 'z'] layout.toList || hasInfix ['%', ':', 'z'] layout.toList ||
    hasInfix ['%', '#', 'z'] layout.toList

/-- Text by a layout; without an offset it is UTC, without a time of day it is midnight. -/
def readByLayout? (text layout : String) : Option Instant :=
  (readLayout? layout text).bind fun p =>
    if layoutHasOffset layout then p.instant? else p.instantUtc? <|> p.midnight?

/-- A timestamp in text: an integer or a float. -/
def readTimestamp? (text : String) : Option Instant :=
  match readInteger minInt64 maxInt64 text.toList with
  | .value n => Instant.ofTimestamp? n
  | _ => (readFloat? text.toList).bind Instant.ofFloatTimestamp?

structure DatetimeType where
  configured : Option String
deriving DecidableEq, Repr

namespace DatetimeType

/-- An empty layout counts as none. -/
def ofFormat (format : Option String) : DatetimeType := ⟨format.filter (!·.isEmpty)⟩

def layout (t : DatetimeType) : String := t.configured.getD defaultLayout

def format? (t : DatetimeType) (i : Instant) : Option String := i.format? t.layout

/-- The notations of a date, tried in this order. -/
def parse? (t : DatetimeType) (text : String) : Option Instant :=
  (readLayout? extendedLayout (dropZoneName text)).bind DateParts.instant? <|>
  t.configured.bind (readByLayout? text) <|>
  (readMailDate? text).bind DateParts.instant? <|>
  (readProtocolDate? text).bind DateParts.instant? <|>
  readByLayout? text fractionalLayout <|>
  readTimestamp? text

/-- A timestamp beyond the calendar cannot be kept. -/
def ofTimestamp : Option Instant → Except TypeError Value
  | some i => .ok (.datetime i)
  | none => .error (.inexact "timestamp" .datetime)

def decode (t : DatetimeType) : Input → Except TypeError Value
  | .null => .ok .null
  | .value (.datetime i) => .ok (.datetime i)
  | .value (.int n) => ofTimestamp (Instant.ofTimestamp? n.toInt)
  | .value (.uint n) => ofTimestamp ((int64? n.toNat).bind fun n => Instant.ofTimestamp? n.toInt)
  | .value (.float x) => ofTimestamp (Instant.ofFloatTimestamp? x)
  | .value (.text s) =>
    match Text.nonBlank? s with
    | none => .ok .null
    | some text =>
      match t.parse? text with
      | some i => .ok (.datetime i)
      | none => .error (.parse text .datetime)
  | input => .error (input.refuse .datetime)

def validate : Value → Except TypeError Unit
  | .null => .ok ()
  | .datetime _ => .ok ()
  | v => .error (.convert v.label .datetime)

end DatetimeType

/-! ### Durations -/

structure DurationType where
  min : Option Int64
  max : Option Int64
deriving DecidableEq, Repr

namespace DurationType

def ofBounds (bounds : Option (Bounds Int64)) : DurationType :=
  ⟨bounds.bind (·.min), bounds.bind (·.max)⟩

def validateDescriptor (t : DurationType) : Except TypeError Unit :=
  match t.min, t.max with
  | some min, some max =>
    if max < min then .error (.descriptor .duration (.durationRange min.toInt max.toInt)) else .ok ()
  | _, _ => .ok ()

/-- The span, or the number that is none. -/
def ofNumber (shown : String) : Option Duration → Except TypeError (Option Duration)
  | some d => .ok (some d)
  | none => .error (.inexact shown .duration)

def span : Input → Except TypeError (Option Duration)
  | .null => .ok none
  | .value (.duration d) => .ok (some d)
  | .value (.int n) => ofNumber (intText n.toInt) (Duration.ofSeconds? n.toInt)
  | .value (.uint n) =>
    ofNumber (natText n.toNat) ((int64? n.toNat).bind fun n => Duration.ofSeconds? n.toInt)
  | .value (.float x) => ofNumber (floatText x) (Duration.ofFloatSeconds? x)
  | .value (.text s) =>
    match Text.nonBlank? s with
    | none => .ok none
    | some text =>
      match Duration.read? text with
      | .ok (some d) => .ok (some d)
      | .ok none => .error (.parse text .duration)
      | .error _ => .error (.breakdown .overflow)
  | input => .error (input.refuse .duration)

/-- A lower bound also forbids null. -/
def validate (t : DurationType) : Value → Except TypeError Unit
  | .null =>
    match t.min with
    | some min => .error (.violation (.durationMin none min.toInt))
    | none => .ok ()
  | .duration d =>
    match t.min.filter (d.seconds < ·.toInt), t.max.filter (·.toInt < d.seconds) with
    | some min, _ => .error (.violation (.durationMin (some d) min.toInt))
    | none, some max => .error (.violation (.durationMax d max.toInt))
    | none, none => .ok ()
  | v => .error (.convert v.label .duration)

def valueOf : Option Duration → Value
  | some d => .duration d
  | none => .null

def decode (t : DurationType) (input : Input) : Except TypeError Value := do
  let value := valueOf (← span input)
  t.validate value
  return value

end DurationType

end TenantSchema
