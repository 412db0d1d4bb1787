import BoothLink.Text.Unprintable

/-!
# Quoted texts

How a diagnostic shows a text that came from the network: between double quotes, with a backslash
before a quote or a backslash, letters for the common controls, and the code point in hexadecimal for
every other unprintable character. The apostrophe stands for itself.

* `Text.quoted`: the quoted form.
-/

namespace BoothLink.Text

/-- A code point as it is written in a quoted text. -/
def codePoint (n : Nat) : List Char :=
  ['\\', 'u', '\x7b'] ++ Nat.toDigits 16 n ++ ['\x7d']

/-- A character as it stands between quotes. -/
def quotedChar (c : Char) : List Char :=
  if c = '\x00' then ['\\', '0']
  else if c = '\t' then ['\\', 't']
  else if c = '\r' then ['\\', 'r']
  else if c = '\n' then ['\\', 'n']
  else if c = '"' then ['\\', '"']
  else if c = '\\' then ['\\', '\\']
  else if isUnprintable c then codePoint c.toNat
  else [c]

def quoted (s : String) : String :=
  String.ofList ('"' :: (s.toList.flatMap quotedChar ++ ['"']))

end BoothLink.Text
