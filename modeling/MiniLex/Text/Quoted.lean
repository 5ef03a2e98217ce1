import MiniLex.Text.Invisible

/-!
# A character in quotes

Messages name a character between single quotes. The quote and the backslash are written with a
backslash, four controls by their letter, and any other character that would not show by its code
point in lower-case hexadecimal digits without leading zeros.

- `escaped`: the character as it stands between the quotes.
- `quoted`: the character with its quotes.
-/

namespace MiniLex

/-- The character as it stands between single quotes. -/
def escaped (c : Char) : String :=
  if c = '\x00' then "\\0"
  else if c = '\t' then "\\t"
  else if c = '\n' then "\\n"
  else if c = '\r' then "\\r"
  else if c = '\'' then "\\'"
  else if c = '\\' then "\\\\"
  else if isInvisible c then "\\u\x7b" ++ String.ofList (Nat.toDigits 16 c.toNat) ++ "\x7d"
  else c.toString

/-- The character in single quotes. -/
def quoted (c : Char) : String :=
  "'" ++ escaped c ++ "'"

end MiniLex
