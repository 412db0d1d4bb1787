import BoothLink.Octets
import BoothLink.Toml.Text

/-!
# Writing TOML strings

Of the forms that a string can take, the first that needs no escapes is written: between quotes, between
apostrophes, and between three of either. Line ends ask for one of the latter, and the text then begins
on a line of its own. If a control makes escapes necessary, or three of both signs follow each other,
quotes are used with escapes. Between quotes a tab is always written as an escape, and between three of
them the third quote in a row.

* `Toml.Style`, `Toml.Style.of`: the forms, and which one a string takes.
* `Toml.writeText`: the written form of a string.
-/

namespace BoothLink.Toml

/-- Whether a character can only be written as an escape. -/
def isControl (c : Char) : Bool := !Text.isPlain c && c ≠ '\n'

/-- The length of the longest run of a sign, given the run that has just been read. -/
def longestRun (sign : Char) (run : Nat) : List Char → Nat
  | [] => run
  | c :: cs => if c = sign then longestRun sign (run + 1) cs else max run (longestRun sign 0 cs)

structure Style where
  /-- Between quotes, where escapes are read, and not between apostrophes. -/
  escapes : Bool
  /-- Between three of the signs. -/
  several : Bool
  deriving DecidableEq, Repr

namespace Style

def of (s : List Char) : Style :=
  let controls := s.any isControl
  let backslash := '\\' ∈ s
  let lines := '\n' ∈ s
  let quotes := longestRun Text.quote 0 s
  let apostrophes := longestRun Text.apostrophe 0 s
  if controls then ⟨true, lines⟩
  else if !backslash && quotes = 0 && !lines then ⟨true, false⟩
  else if apostrophes = 0 && !lines then ⟨false, false⟩
  else if !backslash && quotes ≤ 2 then ⟨true, true⟩
  else if apostrophes ≤ 2 then ⟨false, true⟩
  else ⟨true, lines⟩

def sign (y : Style) : Char := if y.escapes then Text.quote else Text.apostrophe

/-- What stands before and after the text. -/
def delimiter (y : Style) : List Char := List.replicate (if y.several then 3 else 1) y.sign

end Style

/-- The upper-case hexadecimal digit of a number below sixteen. -/
def hexDigit (n : Nat) : Char := if n < 10 then Char.ofNat (48 + n) else Char.ofNat (55 + n)

/-- A control as an escape. -/
def escapeControl (c : Char) : List Char :=
  if c.toNat = 8 then ['\\', 'b']
  else if c = '\t' then ['\\', 't']
  else if c = '\n' then ['\\', 'n']
  else if c.toNat = 12 then ['\\', 'f']
  else if c = '\r' then ['\\', 'r']
  else ['\\', 'u', '0', '0', hexDigit (c.toNat / 16), hexDigit (c.toNat % 16)]

/-- The text of a string between quotes; `allowed` more quotes in a row may be written as they are. -/
def quotedText (several : Bool) (allowed : Nat) : List Char → List Char
  | [] => []
  | c :: cs =>
    let most := if several then 2 else 0
    if c = Text.quote then
      match allowed with
      | 0 => '\\' :: c :: quotedText several most cs
      | allowed + 1 => c :: quotedText several allowed cs
    else if c = '\\' then '\\' :: '\\' :: quotedText several most cs
    else if c = '\n' && several then c :: quotedText several most cs
    else if isControl c || c = '\t' || c = '\n' then escapeControl c ++ quotedText several most cs
    else c :: quotedText several most cs

/-- The text of a string between its signs. -/
def Style.body (y : Style) (s : List Char) : List Char :=
  if y.escapes then quotedText y.several (if y.several then 2 else 0) s else s

/-- The written form of a string. -/
def writeText (s : List Char) : List Char :=
  let y := Style.of s
  y.delimiter ++ (if '\n' ∈ s then ['\n'] else []) ++ y.body s ++ y.delimiter

end BoothLink.Toml
