import BoothLink.Decimal.Digits

/-!
# Addresses of four octets

* `Ipv4`, a word of 32 bits; `Ipv4.text` and `Ipv4.parse?`, the dotted form.
* `Ipv4.read?`: a dotted form at the front of a text. A part has at most three digits and no needless
  zero in front.
-/

namespace BoothLink

/-- An address of four octets. -/
structure Ipv4 where
  word : UInt32
  deriving DecidableEq, Repr

namespace Ipv4

/-- The address with these parts, each below 256. -/
def ofParts (a b c d : Nat) : Ipv4 := ⟨UInt32.ofNat (((a * 256 + b) * 256 + c) * 256 + d)⟩

def parts (a : Ipv4) : List Nat :=
  let n := a.word.toNat
  [n / 256 / 256 / 256, n / 256 / 256 % 256, n / 256 % 256, n % 256]

/-- The dotted form of an address. -/
def text (a : Ipv4) : String := ".".intercalate (a.parts.map toString)

/-- Reads a part: one to three digits, no zero before another digit, below 256. -/
def readPart? (cs : List Char) : Option (Nat × List Char) :=
  let digits := cs.takeWhile Char.isDigit
  let n := Digits.value 10 digits
  if digits.isEmpty || 3 < digits.length || 255 < n then none
  else if digits.head? = some '0' && digits.length ≠ 1 then none
  else some (n, cs.drop digits.length)

/-- Reads a part behind a dot. -/
def readDotted? : List Char → Option (Nat × List Char)
  | '.' :: rest => readPart? rest
  | _ => none

/-- Reads a dotted form. -/
def read? (cs : List Char) : Option (Ipv4 × List Char) := do
  let (a, cs) ← readPart? cs
  let (b, cs) ← readDotted? cs
  let (c, cs) ← readDotted? cs
  let (d, cs) ← readDotted? cs
  return (ofParts a b c d, cs)

/-- The address that a text is the dotted form of. -/
def parse? (s : String) : Option Ipv4 :=
  match read? s.toList with
  | some (a, []) => some a
  | _ => none

/-- The address of this machine to itself. -/
def loopback : Ipv4 := ofParts 127 0 0 1

/-- The address of everyone on the local network. -/
def limitedBroadcast : Ipv4 := ofParts 255 255 255 255

end Ipv4

end BoothLink
