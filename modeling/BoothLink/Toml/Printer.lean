import BoothLink.Toml.Basic
import BoothLink.Toml.Style

/-!
# Writing TOML files

The parts of which a file of settings is made: entries, headers, lists of strings and whole numbers. A
list of two strings or more has each of them on a line of its own.

* `Toml.writeEntry`, `Toml.writeHeader`: the lines.
* `Toml.writeTexts`, `Toml.writeNat?`: values other than strings.
-/

namespace BoothLink.Toml

/-- A line with an entry. -/
def writeEntry (key : String) (value : List Char) : List Char :=
  key.toList ++ [' ', '=', ' '] ++ value ++ ['\n']

/-- The header of a table, behind an empty line. -/
def writeHeader (name : String) : List Char := ['\n', '['] ++ name.toList ++ [']', '\n']

/-- An item on a line of its own. -/
def writeItem (s : String) : List Char :=
  [' ', ' ', ' ', ' '] ++ writeText s.toList ++ [',', '\n']

def writeTexts : List String → List Char
  | [] => ['[', ']']
  | [s] => '[' :: (writeText s.toList ++ [']'])
  | items => '[' :: '\n' :: (items.flatMap writeItem ++ [']'])

/-- A number, unless it is too large for a file. -/
def writeNat? (n : Nat) : Option (List Char) :=
  if n < intLimit then some (Nat.toDigits 10 n) else none

end BoothLink.Toml
