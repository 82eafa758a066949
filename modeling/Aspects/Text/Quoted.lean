import Aspects.Text.Printable

/-!
# Quoted text

How a text is shown between double quotes. A quote and a backslash get a backslash;
line feed, carriage return, tab and the null character have letters of their own;
every other character that is not printable is shown by its code point.
-/

namespace Aspects.Text

/-- The digits of `n` in base sixteen, in small letters. -/
def hex (n : Nat) : List Char :=
  Nat.toDigits 16 n

/-- One character as it stands inside quotes. -/
def quoteChar (c : Char) : List Char :=
  if c == '"' || c == '\\' then ['\\', c]
  else if c == '\n' then ['\\', 'n']
  else if c == '\r' then ['\\', 'r']
  else if c == '\t' then ['\\', 't']
  else if c.toNat == 0 then ['\\', '0']
  else if isPrintable c then [c]
  else ['\\', 'u', '\x7b'] ++ hex c.toNat ++ ['\x7d']

/-- A text between double quotes. -/
def quote (s : String) : String :=
  String.ofList ('"' :: (s.toList.flatMap quoteChar ++ ['"']))

end Aspects.Text
