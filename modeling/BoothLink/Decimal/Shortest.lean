import BoothLink.Decimal.Binary64

/-!
# The fewest digits that identify a double

The numbers that round to a finite double form an interval around it. Of the decimals in that
interval `shortest` gives one with the fewest digits, and of these the nearest to the double: for one
digit, two digits and so on it tries the two neighbours of the double on the grid of decimals with
that many digits.

* `Binary64.Interval`: the double and the reach of its interval, in quarters of its last bit.
* `Binary64.shortest`: the digits and the power of ten that goes with them.
-/

namespace BoothLink

/-- A decimal: the whole number `digits` times ten to the power `exponent`. -/
structure Decimal where
  digits : Nat
  exponent : Int
  deriving DecidableEq, Repr

namespace Decimal

/-- The power of ten of the leading digit. -/
def leading (d : Decimal) : Int := d.exponent + Digits.width d.digits - 1

/-- Moves zeros at the end of the digits into the exponent. -/
def stripZeros (fuel : Nat) (d : Decimal) : Decimal :=
  match fuel with
  | 0 => d
  | fuel + 1 =>
    if d.digits ≠ 0 ∧ d.digits % 10 = 0 then stripZeros fuel ⟨d.digits / 10, d.exponent + 1⟩ else d

end Decimal

namespace Binary64

/-- A double `value * 2 ^ unit`, with how far the numbers that round to it reach on either side. -/
structure Interval where
  value : Nat
  /-- The distance of the lower end. -/
  down : Nat
  /-- The distance of the upper end. -/
  up : Nat
  unit : Int
  /-- Whether the ends belong to the interval. -/
  closed : Bool

/-- The interval of a positive magnitude. The neighbour below a power of two is at half the distance
of the one above. -/
def interval (m : Nat) (q : Int) : Interval where
  value := 4 * m
  down := if m = Nat.pow 2 52 ∧ q ≠ -1074 then 1 else 2
  up := 2
  unit := q - 2
  closed := m % 2 = 0

namespace Interval

/-- Whether a number at some distance from the value lies in the interval, on a side that reaches so
far. -/
def reaches (i : Interval) (bound distance : Nat) : Bool :=
  if i.closed then distance ≤ bound else distance < bound

/-- The power of ten of the leading digit of the value: the difference of the widths of a quotient's
two numbers, or one less. -/
def leading (i : Interval) : Int :=
  let (a, b) := scaled i.value i.unit
  let k : Int := (Digits.width a : Int) - Digits.width b
  let enough := if 0 ≤ k then b * Nat.pow 10 k.toNat ≤ a else b ≤ a * Nat.pow 10 (-k).toNat
  if enough then k else k - 1

/-- The neighbour of the value on the grid of a power of ten that lies in the interval and is nearer;
an exact tie goes to the even one. -/
def neighbour? (i : Interval) (exponent : Int) : Option Decimal :=
  -- one step of the grid is `step / unit` units of the interval
  let (a, b) := scaled 1 i.unit
  let step := (if 0 ≤ exponent then Nat.pow 10 exponent.toNat else 1) * b
  let unit := (if 0 ≤ exponent then 1 else Nat.pow 10 (-exponent).toNat) * a
  let num := i.value * unit
  let toBelow := num % step
  let toAbove := step - toBelow
  match i.reaches (i.down * unit) toBelow, i.reaches (i.up * unit) toAbove with
  | true, true =>
    let below := num / step
    if toBelow < toAbove ∨ (toBelow = toAbove ∧ below % 2 = 0) then some ⟨below, exponent⟩
    else some ⟨below + 1, exponent⟩
  | true, false => some ⟨num / step, exponent⟩
  | false, true => some ⟨num / step + 1, exponent⟩
  | false, false => none

end Interval

/-- The shortest decimal of the magnitude `m * 2 ^ q`; seventeen digits always suffice. -/
def shortest (m : Nat) (q : Int) : Decimal :=
  if m = 0 then ⟨0, 0⟩
  else
    let i := interval m q
    let leading := i.leading
    match (List.range 17).findSome? fun (n : Nat) => i.neighbour? (leading - n) with
    | some d => d.stripZeros 20
    | none => ⟨m, 0⟩

end Binary64

end BoothLink
