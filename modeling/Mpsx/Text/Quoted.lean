/-
  Mpsx/Text/Quoted.lean
  =====================
  **Quoted text.**  A string in a diagnostic stands between double quotes, with
  escapes for the quote, the backslash, line ends, tabs and NUL, and with a
  braced hexadecimal code point for every other character that does not print by
  itself.
-/

import Mpsx.Text.Printable

namespace Mpsx.Text

/-- A code point in lowercase hexadecimal, without leading zeros. -/
def hexadecimal (n : Nat) : String := String.ofList (Nat.toDigits 16 n)

/-- A character as it stands between double quotes. -/
def escape (c : Char) : String :=
  if c = '"' then "\\\""
  else if c = '\\' then "\\\\"
  else if c = '\n' then "\\n"
  else if c = '\r' then "\\r"
  else if c = '\t' then "\\t"
  else if c.toNat = 0 then "\\0"
  else if isPrintable c then String.singleton c
  else "\\u\x7b" ++ hexadecimal c.toNat ++ "\x7d"

/-- A string between double quotes. -/
def quoted (s : String) : String :=
  "\"" ++ String.join (s.toList.map escape) ++ "\""

end Mpsx.Text
