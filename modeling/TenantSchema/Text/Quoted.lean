import TenantSchema.Text.GraphemeExtendTable
import TenantSchema.Text.Ranges
import TenantSchema.Text.UnprintableTable

/-!
# Quoted text

Text in messages stands between double quotes. Quotes and backslashes are escaped, the common
controls have short escapes, and a character that does not show on its own is written by its code.
-/

namespace TenantSchema.Text

/-- The escape of a character by its code point. -/
def codeEscape (c : Char) : List Char := ['\\', 'u', '\x7b'] ++ Nat.toDigits 16 c.toNat ++ ['\x7d']

def quotedChar (c : Char) : List Char :=
  if c = '\x00' then ['\\', '0']
  else if c = '\t' then ['\\', 't']
  else if c = '\r' then ['\\', 'r']
  else if c = '\n' then ['\\', 'n']
  else if c = '"' then ['\\', '"']
  else if c = '\\' then ['\\', '\\']
  else if inRanges graphemeExtendRanges c || inRanges unprintableRanges c then codeEscape c
  else [c]

def quoted (s : String) : String :=
  String.ofList (['"'] ++ s.toList.flatMap quotedChar ++ ['"'])

end TenantSchema.Text
