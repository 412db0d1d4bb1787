import BoothLink.Decimal.Digits

/-!
# Doubles as patterns

A double is kept as its 64 bits, so that every pattern, each NaN included, passes through the library
unchanged. Arithmetic is needed only where a double is read or written as decimal text; it is done
exactly, on natural numbers.

* `Binary64.shape`: what a pattern stands for, a finite magnitude being `m * 2 ^ q`.
* `roundDiv`: a quotient to the nearest whole number, a half going to the even neighbour.
* `Binary64.nearest`: the double nearest to a quotient, ties to even, too large ones to infinity.
* `Binary64.ofDecimal`: the double nearest to a decimal.
-/

namespace BoothLink

/-- A double, by its bits. -/
structure Binary64 where
  bits : UInt64
  deriving DecidableEq, Repr, Inhabited

/-- The quotient rounded to the nearest whole number, a half to the even neighbour. -/
def roundDiv (num den : Nat) : Nat :=
  let q := num / den
  let r := num % den
  if 2 * r < den then q
  else if den < 2 * r then q + 1
  else if q % 2 = 0 then q else q + 1

namespace Binary64

/-- What the magnitude of a double is. -/
inductive Shape where
  | finite (m : Nat) (q : Int)
  | infinite
  | nan
  deriving DecidableEq, Repr

/-- Whether the sign bit is set. -/
def negative (x : Binary64) : Bool := Nat.pow 2 63 ≤ x.bits.toNat

/-- The magnitude of a double: a hidden bit is added unless the exponent field is zero. -/
def shape (x : Binary64) : Shape :=
  let field : Nat := x.bits.toNat / Nat.pow 2 52 % Nat.pow 2 11
  let fraction : Nat := x.bits.toNat % Nat.pow 2 52
  if field = 2047 then (if fraction = 0 then .infinite else .nan)
  else if field = 0 then .finite fraction (-1074)
  else .finite (Nat.pow 2 52 + fraction) ((field : Int) - 1075)

/-- The bits of infinity without its sign. -/
def infinityBits : Nat := 2047 * Nat.pow 2 52

/-- The double with a sign and a magnitude pattern. -/
def ofMagnitude (isNegative : Bool) (magnitude : Nat) : Binary64 :=
  ⟨UInt64.ofNat (if isNegative then Nat.pow 2 63 + magnitude else magnitude)⟩

/-- A power of two times a natural number, as a quotient. -/
def scaled (m : Nat) (q : Int) : Nat × Nat :=
  if 0 ≤ q then (m * Nat.pow 2 q.toNat, 1) else (m, Nat.pow 2 (-q).toNat)

/-- The whole part of the binary logarithm of a positive quotient. -/
def log2 (num den : Nat) : Int :=
  let e : Int := num.log2 - den.log2
  let (a, b) := scaled den e
  if a ≤ num * b then e else e - 1

/-- The magnitude pattern nearest to a quotient: the lowest exponent with which the significand has
at most 53 bits, and never below the least one. A significand rounded up to 54 bits carries into the
exponent field by itself. -/
def nearestBits (num den : Nat) : Nat :=
  if num = 0 then 0
  else
    let q := max (log2 num den - 52) (-1074)
    let (a, b) := scaled 1 q
    let bits := (q + 1074).toNat * Nat.pow 2 52 + roundDiv (num * b) (den * a)
    min bits infinityBits

/-- The double nearest to a quotient with a sign. -/
def nearest (isNegative : Bool) (num den : Nat) : Binary64 :=
  ofMagnitude isNegative (nearestBits num den)

/-- The double nearest to a decimal with a sign. Beyond these powers of ten there is only infinity, or
zero. -/
def ofDecimal (isNegative : Bool) (significand : Nat) (e : Int) : Binary64 :=
  let leading := e + Digits.width significand
  if significand = 0 ∨ leading < -330 then ofMagnitude isNegative 0
  else if 310 < leading then ofMagnitude isNegative infinityBits
  else if 0 ≤ e then nearest isNegative (significand * Nat.pow 10 e.toNat) 1
  else nearest isNegative significand (Nat.pow 10 (-e).toNat)

/-- The magnitude of a finite double as a quotient. -/
def ratio? (x : Binary64) : Option (Nat × Nat) :=
  match x.shape with
  | .finite m q => some (scaled m q)
  | _ => none

end Binary64

end BoothLink
