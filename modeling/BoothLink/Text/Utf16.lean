import BoothLink.Octets

/-!
# Text in sixteen-bit units

A character below U+10000 is one unit; any other is a high surrogate followed by a low one. On the
wire each unit is two octets, the more significant first.

* `Utf16.encode`, `Utf16.decode?`: text to octets and back; a surrogate without its partner is no
  text.
-/

namespace BoothLink.Utf16

def unitsOf (c : Char) : List UInt16 :=
  let n := c.toNat
  if n < 0x10000 then [UInt16.ofNat n]
  else [UInt16.ofNat (0xD800 + (n - 0x10000) / 0x400), UInt16.ofNat (0xDC00 + (n - 0x10000) % 0x400)]

def units (s : List Char) : List UInt16 := s.flatMap unitsOf

def unitOctets (u : UInt16) : Octets := Octets.ofNat 2 u.toNat

def encode (s : List Char) : Octets := (units s).flatMap unitOctets

/-- The first half of a pair. -/
def isHigh (u : UInt16) : Bool := 0xD800 ≤ u && u ≤ 0xDBFF

/-- The second half of a pair. -/
def isLow (u : UInt16) : Bool := 0xDC00 ≤ u && u ≤ 0xDFFF

/-- The character that a pair stands for. -/
def pair (high low : UInt16) : Char :=
  Char.ofNat (0x10000 + (high.toNat - 0xD800) * 0x400 + (low.toNat - 0xDC00))

/-- The text of units, put after what was read before, which is held in reverse. -/
def decodeOnto (done : List Char) : List UInt16 → Option (List Char)
  | [] => some done.reverse
  | [u] => if isHigh u || isLow u then none else some (Char.ofNat u.toNat :: done).reverse
  | u :: v :: rest =>
    if isHigh u then
      if isLow v then decodeOnto (pair u v :: done) rest else none
    else if isLow u then none
    else decodeOnto (Char.ofNat u.toNat :: done) (v :: rest)

/-- The units of octets taken two by two, put after those held in reverse. -/
def unitsOnto (done : List UInt16) : Octets → List UInt16
  | a :: b :: rest => unitsOnto (UInt16.ofNat (a.toNat * 256 + b.toNat) :: done) rest
  | _ => done.reverse

/-- The text of octets of even number; nothing if a surrogate lacks its partner. -/
def decode? (b : Octets) : Option (List Char) := decodeOnto [] (unitsOnto [] b)

end BoothLink.Utf16
