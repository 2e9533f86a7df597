/-
Quoted text in diagnostics.

A text that a message cites stands between double quotes. Quotes and backslashes are escaped, so are tab, line feed,
carriage return and NUL, and every character that would not be seen or would join its neighbour is written by its code
point in braces.
-/
import BlockTemplates.Text.Unseen

namespace BlockTemplates.Text

/-- a code point in lower case hexadecimal -/
def hexCode (n : Nat) : List Char :=
  Nat.toDigits 16 n

def quoteChar (c : Char) : List Char :=
  if c = '"' then ['\\', '"']
  else if c = '\\' then ['\\', '\\']
  else if c = '\t' then ['\\', 't']
  else if c = '\n' then ['\\', 'n']
  else if c = '\r' then ['\\', 'r']
  else if c.toNat = 0 then ['\\', '0']
  else if isUnseen c then ['\\', 'u', '{'] ++ hexCode c.toNat ++ ['}']
  else [c]

def quoted (cs : List Char) : List Char :=
  '"' :: (cs.flatMap quoteChar ++ ['"'])

end BlockTemplates.Text
