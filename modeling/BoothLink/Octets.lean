/-!
# Octets

What travels on the wire is a list of octets. This module holds the two views of such a list that
the rest of the library needs: its hexadecimal text, and the number it spells with the most
significant octet first.

* `Octets.hex`, `Octets.preview`: the full text, and the short one shown in diagnostics.
* `Octets.ofNat`, `Octets.value`: a number in a fixed number of octets, and back.
-/

namespace BoothLink

/-- A string of octets, first octet first. -/
abbrev Octets := List UInt8

namespace Octets

/-! ## Hexadecimal text -/

/-- The lower-case hexadecimal digit of a number below sixteen. -/
def hexDigit (n : Nat) : Char :=
  if n < 10 then Char.ofNat (48 + n) else Char.ofNat (87 + n)

/-- The value of a hexadecimal digit of either case. -/
def hexValue? (c : Char) : Option Nat :=
  let n := c.toNat
  if 48 ≤ n ∧ n ≤ 57 then some (n - 48)
  else if 97 ≤ n ∧ n ≤ 102 then some (n - 87)
  else if 65 ≤ n ∧ n ≤ 70 then some (n - 55)
  else none

def hexPair (o : UInt8) : List Char :=
  [hexDigit (o.toNat / 16), hexDigit (o.toNat % 16)]

/-- The digits of all octets, one after another. -/
def hex (b : Octets) : String :=
  String.ofList (b.flatMap hexPair)

/-- How many octets a diagnostic shows. -/
def previewLength : Nat := 64

/-- The first octets as digit pairs parted by spaces; an ellipsis says that there are more. -/
def preview (b : Octets) : String :=
  let shown := (b.take previewLength).map hexPair
  let digits := List.intercalate [' '] shown
  String.ofList (if b.length > previewLength then digits ++ [' ', '.', '.', '.'] else digits)

/-- The octets that pairs of digits spell; nothing for an odd number of digits or another sign. -/
def ofHexOnto (done : Octets) : List Char → Option Octets
  | [] => some done.reverse
  | [_] => none
  | a :: b :: rest =>
    match hexValue? a, hexValue? b with
    | some x, some y => ofHexOnto (UInt8.ofNat (x * 16 + y) :: done) rest
    | _, _ => none

/-- The octets that a hexadecimal text spells. -/
def ofHex? (digits : List Char) : Option Octets := ofHexOnto [] digits

/-! ## Numbers -/

/-- The low `width` octets of a number, the most significant first. -/
def ofNat : (width : Nat) → (n : Nat) → Octets
  | 0, _ => []
  | width + 1, n => ofNat width (n / 256) ++ [UInt8.ofNat n]

/-- The number that octets spell, the most significant first. -/
def value (b : Octets) : Nat :=
  b.foldl (fun n o => n * 256 + o.toNat) 0

@[simp] theorem length_ofNat (width n : Nat) : (ofNat width n).length = width := by
  induction width generalizing n with
  | zero => rfl
  | succ width ih => simp [ofNat, ih]

@[simp] theorem value_nil : value [] = 0 := rfl

theorem value_concat (b : Octets) (o : UInt8) : value (b ++ [o]) = value b * 256 + o.toNat := by
  simp [value, List.foldl_append]

end Octets

end BoothLink
