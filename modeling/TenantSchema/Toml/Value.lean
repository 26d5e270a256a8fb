import TenantSchema.Number.FloatText
import TenantSchema.Toml.Moment
import TenantSchema.Wire

/-!
# TOML values

Keys, strings, numbers, dates, arrays and inline tables, read into wire values. Dates are kept as
text. Arrays may span lines and hold comments.
-/

namespace TenantSchema.Toml

open TenantSchema.Number

def isSpace (c : Char) : Bool := c = ' ' || c = '\t'

def skipSpace (cs : List Char) : List Char := cs.dropWhile isSpace

/-- A control character that text may not hold. -/
def isControl (c : Char) : Bool := (c.toNat < 32 && c != '\t') || c.toNat == 127

/-- The text from the end of the line on, behind a comment if there is one. -/
def skipComment? (cs : List Char) : Option (List Char) :=
  match cs with
  | '#' :: rest =>
    let body := rest.takeWhile (· ≠ '\n')
    let body := if body.getLast? = some '\r' then body.dropLast else body
    if body.any isControl then none else some (rest.dropWhile (· ≠ '\n'))
  | _ => some cs

/-- The text behind the line, of which only spaces and a comment may be left. -/
def endLine? (cs : List Char) : Option (List Char) := do
  match ← skipComment? (skipSpace cs) with
  | [] => some []
  | '\n' :: rest => some rest
  | '\r' :: '\n' :: rest => some rest
  | _ => none

/-- Spaces, line ends and comments, at most `n` lines of them. -/
def skipLines? : Nat → List Char → Option (List Char)
  | 0, cs => some cs
  | n + 1, cs =>
    match skipSpace cs with
    | '\n' :: rest => skipLines? n rest
    | '\r' :: '\n' :: rest => skipLines? n rest
    | '#' :: rest => (skipComment? ('#' :: rest)).bind (skipLines? n)
    | rest => some rest

/-! ### Strings and keys -/

def hexValue? (cs : List Char) : Option Nat :=
  if cs.isEmpty then none
  else cs.foldlM (fun n c =>
    if c.isDigit then some (n * 16 + (c.toNat - '0'.toNat))
    else if 'a' ≤ c.toLower ∧ c.toLower ≤ 'f' then some (n * 16 + (c.toLower.toNat - 'a'.toNat + 10))
    else none) 0

/-- The character of `n` hexadecimal digits. -/
def codeEscape? (n : Nat) (cs : List Char) : Option (Char × List Char) := do
  let code ← if cs.length < n then none else hexValue? (cs.take n)
  if code.isValidChar then some (Char.ofNat code, cs.drop n) else none

def escape? : List Char → Option (Char × List Char)
  | 'b' :: rest => some ('\x08', rest)
  | 't' :: rest => some ('\t', rest)
  | 'n' :: rest => some ('\n', rest)
  | 'f' :: rest => some ('\x0c', rest)
  | 'r' :: rest => some ('\r', rest)
  | 'e' :: rest => some ('\x1b', rest)
  | '"' :: rest => some ('"', rest)
  | '\\' :: rest => some ('\\', rest)
  | 'x' :: rest => codeEscape? 2 rest
  | 'u' :: rest => codeEscape? 4 rest
  | 'U' :: rest => codeEscape? 8 rest
  | _ => none

/-- The rest of a string in double quotes; `n` bounds its length. -/
def basicString? : Nat → List Char → Option (List Char × List Char)
  | 0, _ => none
  | n + 1, cs =>
    match cs with
    | [] => none
    | '"' :: rest => some ([], rest)
    | '\\' :: rest => do
      let (c, rest) ← escape? rest
      let (s, rest) ← basicString? n rest
      return (c :: s, rest)
    | c :: rest =>
      if isControl c then none
      else (basicString? n rest).map fun (s, rest) => (c :: s, rest)

/-- The rest of a string in single quotes, which has no escapes. -/
def literalString? : List Char → Option (List Char × List Char)
  | [] => none
  | '\'' :: rest => some ([], rest)
  | c :: rest =>
    if isControl c then none
    else (literalString? rest).map fun (s, rest) => (c :: s, rest)

/-- The quotes that stand next, at most five, the last three of which close a string. -/
def closingQuotes? (quote : Char) (cs : List Char) : Option (List Char × List Char) :=
  let quotes := (cs.take 5).takeWhile (· = quote)
  if quotes.length < 3 then none else some (quotes.drop 3, cs.drop quotes.length)

/-- The rest of a string of several lines. -/
def longString? (quote : Char) : Nat → List Char → Option (List Char × List Char)
  | 0, _ => none
  | n + 1, cs =>
    match closingQuotes? quote cs with
    | some found => some found
    | none =>
      match cs with
      | [] => none
      | '\\' :: rest =>
        if quote = '\'' then (longString? quote n rest).map fun (s, rest) => ('\\' :: s, rest)
        else
          match skipSpace rest with
          | '\n' :: more => longString? quote n (more.dropWhile fun c => isSpace c || c = '\n')
          | _ => do
            let (c, rest) ← escape? rest
            let (s, rest) ← longString? quote n rest
            return (c :: s, rest)
      | c :: rest =>
        if isControl c && c ≠ '\n' && c ≠ '\r' then none
        else (longString? quote n rest).map fun (s, rest) => (c :: s, rest)

/-- A line end right behind the opening quotes is dropped. -/
def dropFirstLine : List Char → List Char
  | '\n' :: rest => rest
  | '\r' :: '\n' :: rest => rest
  | cs => cs

def string? : List Char → Option (String × List Char)
  | '"' :: '"' :: '"' :: rest =>
    (longString? '"' (rest.length + 1) (dropFirstLine rest)).map fun (s, r) => (String.ofList s, r)
  | '\'' :: '\'' :: '\'' :: rest =>
    (longString? '\'' (rest.length + 1) (dropFirstLine rest)).map fun (s, r) => (String.ofList s, r)
  | '"' :: rest => (basicString? (rest.length + 1) rest).map fun (s, r) => (String.ofList s, r)
  | '\'' :: rest => (literalString? rest).map fun (s, r) => (String.ofList s, r)
  | _ => none

def isBareKeyChar (c : Char) : Bool := c.isAlphanum || c = '_' || c = '-'

/-- One segment of a key. -/
def keySegment? (cs : List Char) : Option (String × List Char) :=
  match cs with
  | '"' :: rest => (basicString? (rest.length + 1) rest).map fun (s, r) => (String.ofList s, r)
  | '\'' :: rest => (literalString? rest).map fun (s, r) => (String.ofList s, r)
  | _ =>
    let name := cs.takeWhile isBareKeyChar
    if name.isEmpty then none else some (String.ofList name, cs.dropWhile isBareKeyChar)

/-- Segments of a key with points between them; `n` bounds their number. -/
def key? : Nat → List Char → Option (List String × List Char)
  | 0, _ => none
  | n + 1, cs => do
    let (name, rest) ← keySegment? (skipSpace cs)
    match skipSpace rest with
    | '.' :: more => (key? n more).map fun (names, rest) => (name :: names, rest)
    | rest => some ([name], rest)

/-! ### Scalars -/

/-- Digits of `isDigit` with single underscores between them, the underscores taken out. -/
def grouped? (isDigit : Char → Bool) : List Char → Option (List Char)
  | [] => none
  | [c] => if isDigit c then some [c] else none
  | c :: '_' :: rest => if isDigit c then (grouped? isDigit rest).map (c :: ·) else none
  | c :: rest => if isDigit c then (grouped? isDigit rest).map (c :: ·) else none

/-- Digits of a decimal without leading zeros. -/
def decimalDigits? (cs : List Char) : Option (List Char) :=
  if cs.head? = some '0' ∧ cs.length ≠ 1 then none else grouped? Char.isDigit cs

def isOctal (c : Char) : Bool := c.isDigit && c < '8'

def isBinary (c : Char) : Bool := c = '0' || c = '1'

def isHex (c : Char) : Bool := c.isDigit || ('a' ≤ c.toLower && c.toLower ≤ 'f')

/-- The value of digits in a base. -/
def digitsValue? (base : Nat) (digits : List Char) : Option Int :=
  if base = 16 then (hexValue? digits).map Int.ofNat
  else some (Nat.ofDigitChars base digits 0)

def integer? : List Char → Option Int
  | '0' :: 'x' :: rest => (grouped? isHex rest).bind (digitsValue? 16)
  | '0' :: 'o' :: rest => (grouped? isOctal rest).bind (digitsValue? 8)
  | '0' :: 'b' :: rest => (grouped? isBinary rest).bind (digitsValue? 2)
  | '+' :: rest => (decimalDigits? rest).map fun ds => Nat.ofDigitChars 10 ds 0
  | '-' :: rest => (decimalDigits? rest).map fun ds => -(Nat.ofDigitChars 10 ds 0 : Int)
  | cs => (decimalDigits? cs).map fun ds => Nat.ofDigitChars 10 ds 0

/-- Splits a number at a character that satisfies `p`. -/
def splitAt (p : Char → Bool) (cs : List Char) : List Char × Option (List Char) :=
  match cs.dropWhile (!p ·) with
  | [] => (cs, none)
  | _ :: rest => (cs.takeWhile (!p ·), some rest)

def stripSign : List Char → List Char
  | '+' :: rest => rest
  | '-' :: rest => rest
  | cs => cs

def float? (cs : List Char) : Option Binary64 :=
  let body := stripSign cs
  if body = ['i', 'n', 'f'] ∨ body = ['n', 'a', 'n'] then readFloat? cs
  else
    let (mantissa, exponent) := splitAt (fun c => c = 'e' || c = 'E') body
    let (whole, fraction) := splitAt (· = '.') mantissa
    let wellFormed := (decimalDigits? whole).isSome &&
      fraction.all (fun ds => (grouped? Char.isDigit ds).isSome) &&
      exponent.all (fun ds => (grouped? Char.isDigit (stripSign ds)).isSome) &&
      (fraction.isSome || exponent.isSome)
    if wellFormed then readFloat? (cs.filter (· ≠ '_')) else none

def isScalarChar (c : Char) : Bool := c.isAlphanum || ['+', '-', '_', '.'].contains c

/-- A bare word: a boolean or a number. -/
def bare? (word : List Char) : Option Wire :=
  if word = "true".toList then some (.bool true)
  else if word = "false".toList then some (.bool false)
  else
    match integer? word with
    | some n =>
      match WireInt.of? n with
      | some n => some (.int n)
      -- a number that no capacity can hold
      | none => some (.float (.ofInt n))
    | none => (float? word).map .float

/-! ### Values -/

/-- Members of an inline table, nested under the segments of their keys. -/
def insertNested? (m : WireMap) : List String → Wire → Option WireMap
  | [], _ => none
  | [name], w => if (m.get? name).isSome then none else some (m.insert name w)
  | name :: names, w =>
    match m.get? name with
    | none => (insertNested? [] names w).map fun inner => m.insert name (.object inner)
    | some (.object inner) => (insertNested? inner names w).map fun inner => m.insert name (.object inner)
    | some _ => none

mutual

/-- A value; `n` bounds the number of steps. -/
def value? : Nat → List Char → Option (Wire × List Char)
  | 0, _ => none
  | n + 1, cs =>
    match cs with
    | [] => none
    | '[' :: rest => (items? n rest).map fun (ws, rest) => (.array ws, rest)
    | '{' :: rest => (members? n [] rest).map fun (m, rest) => (.object m, rest)
    | '"' :: _ => (string? cs).map fun (s, rest) => (.string s, rest)
    | '\'' :: _ => (string? cs).map fun (s, rest) => (.string s, rest)
    | _ =>
      match moment? cs with
      | some (text, rest) => some (.string text, rest)
      | none => (bare? (cs.takeWhile isScalarChar)).map (·, cs.dropWhile isScalarChar)

/-- The items of an array up to its bracket. -/
def items? : Nat → List Char → Option (List Wire × List Char)
  | 0, _ => none
  | n + 1, cs => do
    match ← skipLines? (n + 1) cs with
    | ']' :: rest => some ([], rest)
    | cs =>
      let (w, rest) ← value? n cs
      match ← skipLines? (n + 1) rest with
      | ']' :: rest => some ([w], rest)
      | ',' :: rest => (items? n rest).map fun (ws, rest) => (w :: ws, rest)
      | _ => none

/-- The members of an inline table up to its bracket. -/
def members? : Nat → WireMap → List Char → Option (WireMap × List Char)
  | 0, _, _ => none
  | n + 1, m, cs => do
    match ← skipLines? (n + 1) cs with
    | '}' :: rest => some (m, rest)
    | cs =>
      let (names, rest) ← key? (n + 1) cs
      match rest with
      | '=' :: rest =>
        let (w, rest) ← value? n (skipSpace rest)
        let m ← insertNested? m names w
        match ← skipLines? (n + 1) rest with
        | '}' :: rest => some (m, rest)
        | ',' :: rest => members? n m rest
        | _ => none
      | _ => none

end

end TenantSchema.Toml
