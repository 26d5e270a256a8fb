import TenantSchema.Wire

/-!
# Wire values as JSON text

A number with a fraction or an exponent is a float, as are integers that no 64-bit word holds and
the negative zero. Of members with one name the last counts, in the place of the first.
-/

namespace TenantSchema.Wire

open TenantSchema.Number

/-! ### Writing -/

def hexDigit (n : Nat) : Char := Nat.digitChar (n % 16)

/-- One character within quotes. -/
def escapeChar (c : Char) : List Char :=
  if c = '"' then ['\\', '"']
  else if c = '\\' then ['\\', '\\']
  else if c.toNat < 0x20 then
    ['\\', 'u', '0', '0', hexDigit (c.toNat / 16), hexDigit c.toNat]
  else [c]

def quoteChars (s : String) : List Char := '"' :: s.toList.flatMap escapeChar ++ ['"']

mutual

def jsonChars : Wire → List Char
  | .null => ['n', 'u', 'l', 'l']
  | .bool true => ['t', 'r', 'u', 'e']
  | .bool false => ['f', 'a', 'l', 's', 'e']
  | .int n => intDigits n.val
  | .float x => wireNotation.digits x
  | .string s => quoteChars s
  | .array [] => ['[', ']']
  | .array (w :: rest) => '[' :: w.jsonChars ++ itemChars rest
  | .object [] => ['\x7b', '\x7d']
  | .object ((name, w) :: rest) => '\x7b' :: quoteChars name ++ ':' :: w.jsonChars ++ memberChars rest

/-- The items behind the first one, and the end of the array. -/
def itemChars : List Wire → List Char
  | [] => [']']
  | w :: rest => ',' :: w.jsonChars ++ itemChars rest

def memberChars : List (String × Wire) → List Char
  | [] => ['\x7d']
  | (name, w) :: rest => ',' :: quoteChars name ++ ':' :: w.jsonChars ++ memberChars rest

end

def toJson (w : Wire) : String := String.ofList w.jsonChars

/-! ### Reading -/

def isJsonBlank (c : Char) : Bool := c = ' ' || c = '\n' || c = '\r' || c = '\t'

def skipBlanks (cs : List Char) : List Char := cs.dropWhile isJsonBlank

def hexValue? (c : Char) : Option Nat :=
  if c.isDigit then some (c.toNat - '0'.toNat)
  else if 'a' ≤ c ∧ c ≤ 'f' then some (c.toNat - 'a'.toNat + 10)
  else if 'A' ≤ c ∧ c ≤ 'F' then some (c.toNat - 'A'.toNat + 10)
  else none

def hexValues? (cs : List Char) : Option Nat :=
  cs.foldlM (fun n c => (hexValue? c).map (16 * n + ·)) 0

/-- The character of an escape with one letter. -/
def unescape? : Char → Option Char
  | '"' => some '"'
  | '\\' => some '\\'
  | '/' => some '/'
  | 'b' => some '\x08'
  | 'f' => some '\x0c'
  | 'n' => some '\n'
  | 'r' => some '\r'
  | 't' => some '\t'
  | _ => none

/-- The character of a code point that is one. -/
def charOf? (n : Nat) : Option Char := if n.isValidChar then some (Char.ofNat n) else none

/-- The character of a surrogate pair. -/
def pairedChar? (high low : Nat) : Option Char :=
  if 0xD800 ≤ high ∧ high < 0xDC00 ∧ 0xDC00 ≤ low ∧ low < 0xE000 then
    charOf? (0x10000 + (high - 0xD800) * 0x400 + (low - 0xDC00))
  else none

/-- The text up to the closing quote, and what follows it. -/
def readQuoted? : List Char → Option (List Char × List Char)
  | [] => none
  | '"' :: rest => some ([], rest)
  | '\\' :: 'u' :: a :: b :: c :: d :: rest => do
    let n ← hexValues? [a, b, c, d]
    match charOf? n, rest with
    | some char, rest =>
      let (text, rest) ← readQuoted? rest
      return (char :: text, rest)
    | none, '\\' :: 'u' :: e :: f :: g :: h :: rest =>
      let char ← pairedChar? n (← hexValues? [e, f, g, h])
      let (text, rest) ← readQuoted? rest
      return (char :: text, rest)
    | none, _ => none
  | '\\' :: c :: rest => do
    let char ← unescape? c
    let (text, rest) ← readQuoted? rest
    return (char :: text, rest)
  | c :: rest => do
    let (text, rest) ← readQuoted? rest
    return (c :: text, rest)

def isNumberChar (c : Char) : Bool := c.isDigit || "+-.eE".toList.contains c

/-- The number that a text stands for. -/
def numberOf? (token : List Char) : Option Wire :=
  let asFloat := (readFloat? token).bind fun x => if x.isFinite then some (.float x) else none
  if token.any (fun c => c = '.' || c = 'e' || c = 'E') || token = ['-', '0'] then asFloat
  else
    match (readInteger minInt64 maxUInt64 token).toOption.bind WireInt.of? with
    | some n => some (.int n)
    | none => asFloat

/-- The rest behind a word. -/
def expect? (word : String) (cs : List Char) : Option (List Char) :=
  if word.toList.isPrefixOf cs then some (cs.drop word.length) else none

mutual

/-- A value and what follows it; `depth` bounds the nesting. -/
def readValue? : Nat → List Char → Option (Wire × List Char)
  | 0, _ => none
  | depth + 1, cs =>
    match skipBlanks cs with
    | [] => none
    | '"' :: rest => (readQuoted? rest).map fun (text, rest) => (.string (String.ofList text), rest)
    | '[' :: rest =>
      match skipBlanks rest with
      | ']' :: rest => some (.array [], rest)
      | rest => (readItems? depth rest).map fun (items, rest) => (.array items, rest)
    | '\x7b' :: rest =>
      match skipBlanks rest with
      | '\x7d' :: rest => some (.object [], rest)
      | rest => (readMemberList? depth rest).map fun (m, rest) => (.object (WireMap.ofList m), rest)
    | 'n' :: rest => (expect? "ull" rest).map fun rest => (.null, rest)
    | 't' :: rest => (expect? "rue" rest).map fun rest => (.bool true, rest)
    | 'f' :: rest => (expect? "alse" rest).map fun rest => (.bool false, rest)
    | cs => (numberOf? (cs.takeWhile isNumberChar)).map fun w => (w, cs.dropWhile isNumberChar)

/-- The items of an array that has some, up to its end. -/
def readItems? : Nat → List Char → Option (List Wire × List Char)
  | 0, _ => none
  | depth + 1, cs => do
    let (w, rest) ← readValue? depth cs
    match skipBlanks rest with
    | ',' :: rest =>
      let (items, rest) ← readItems? depth rest
      return (w :: items, rest)
    | ']' :: rest => return ([w], rest)
    | _ => none

def readMemberList? : Nat → List Char → Option (List (String × Wire) × List Char)
  | 0, _ => none
  | depth + 1, cs => do
    let rest ← expect? "\"" (skipBlanks cs)
    let (name, rest) ← readQuoted? rest
    let rest ← expect? ":" (skipBlanks rest)
    let (w, rest) ← readValue? depth rest
    match skipBlanks rest with
    | ',' :: rest =>
      let (members, rest) ← readMemberList? depth rest
      return ((String.ofList name, w) :: members, rest)
    | '\x7d' :: rest => return ([(String.ofList name, w)], rest)
    | _ => none

end

/-- The value of a whole text. -/
def ofJson? (text : String) : Option Wire :=
  let cs := text.toList
  match readValue? (2 * cs.length + 2) cs with
  | some (w, rest) => if (skipBlanks rest).isEmpty then some w else none
  | none => none

end TenantSchema.Wire
