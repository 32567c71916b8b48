import ClientPatch.Text
import ClientPatch.Text.Visible

/-!
# Quoted texts

Messages show a piece of a text in double quotes. The quote and the backslash are escaped by
a backslash, tab, line feed, carriage return and the null character have short escapes, and
every other character that cannot be seen is written by its number in base sixteen.
-/

namespace ClientPatch.Text

/-- The number of a character in lower-case base sixteen, in braces. -/
def numberEscape (c : Char) : Text :=
  ['\\', 'u', '{'] ++ Nat.toDigits 16 c.toNat ++ ['}']

/-- How one character is written between quotes. -/
def quoteChar (c : Char) : Text :=
  if c = '"' then ['\\', '"']
  else if c = '\\' then ['\\', '\\']
  else if c = '\n' then ['\\', 'n']
  else if c = '\r' then ['\\', 'r']
  else if c = '\t' then ['\\', 't']
  else if c.toNat = 0 then ['\\', '0']
  else if isVisible c then [c]
  else numberEscape c

/-- The text between double quotes. -/
def quoted (t : Text) : Text := '"' :: (t.flatMap quoteChar ++ ['"'])

end ClientPatch.Text
