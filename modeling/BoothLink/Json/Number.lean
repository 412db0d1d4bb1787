import BoothLink.Json.Basic

/-!
# Reading JSON numbers

A number is whole if it has neither point nor exponent and fits 64 bits; `-0` is not, so that its
sign is kept. Of any other number the leading digits that fit 64 unsigned bits are rounded to a
double, which is then multiplied or divided by the double nearest to the power of ten that is left,
in steps of at most `10 ^ 308`, rounding after each. A result beyond the greatest double is refused.

* `Json.Number.read`: the number at the front of a text, after its sign.
-/

namespace BoothLink.Json.Number

def digit? (c : Char) : Option Nat :=
  let n := c.toNat
  if 48 ≤ n ∧ n ≤ 57 then some (n - 48) else none

def isDigit (c : Char) : Bool := (digit? c).isSome

/-- The greatest significand that is kept. -/
def greatest : Nat := Nat.pow 2 64 - 1

/-- The greatest exponent that is counted. -/
def greatestExponent : Nat := Nat.pow 2 31 - 1

/-- Takes digits onto a number while it stays within a bound, counting them; the rest begins with
the first digit that did not fit, or with no digit. -/
def gather (bound n count : Nat) : List Char → Nat × Nat × List Char
  | [] => (n, count, [])
  | c :: rest =>
    match digit? c with
    | none => (n, count, c :: rest)
    | some d =>
      if n * 10 + d ≤ bound then gather bound (n * 10 + d) (count + 1) rest
      else (n, count, c :: rest)

/-! ## Doubles -/

/-- A double times or divided by the double nearest to a power of ten; nothing for infinity. -/
def timesTen (x : Nat × Nat) (e : Int) : Option (Nat × Nat) :=
  let power := (Binary64.nearest false (Nat.pow 10 e.natAbs) 1).ratio?.getD (1, 1)
  let product :=
    if 0 ≤ e then Binary64.nearest false (x.1 * power.1) (x.2 * power.2)
    else Binary64.nearest false (x.1 * power.2) (x.2 * power.1)
  product.ratio?

/-- Applies a power of ten in steps. Four steps bring every significand down to zero. -/
def scale : (steps : Nat) → Nat × Nat → Int → Option (Nat × Nat)
  | 0, _, _ => some (0, 1)
  | steps + 1, x, e =>
    if e.natAbs ≤ 308 then timesTen x e
    else if x.1 = 0 then some x
    else if 0 ≤ e then none
    else (timesTen x (-308)).bind fun y => scale steps y (e + 308)

/-- The double that a significand and a power of ten are read as. -/
def double? (isNegative : Bool) (significand : Nat) (e : Int) : Option Json :=
  let x := (Binary64.nearest false significand 1).ratio?.getD (0, 1)
  (scale 4 x e).map fun (num, den) => .float (Binary64.nearest isNegative num den)

/-- The double read so far, with the text after it; one out of range is no number. -/
def double (isNegative : Bool) (significand : Nat) (e : Int) (rest : List Char) :
    Except Fault (Json × List Char) :=
  match double? isNegative significand e with
  | some v => .ok (v, rest)
  | none => .error .malformed

/-! ## The parts after the whole digits -/

/-- Reads an exponent after its mark. -/
def exponent (isNegative : Bool) (significand : Nat) (start : Int) (cs : List Char) :
    Except Fault (Json × List Char) :=
  let (down, cs) :=
    match cs with
    | '+' :: rest => (false, rest)
    | '-' :: rest => (true, rest)
    | rest => (false, rest)
  match cs with
  | [] => .error .cutShort
  | c :: _ =>
    if !isDigit c then .error .malformed
    else
      let (e, _, rest) := gather greatestExponent 0 0 cs
      if rest.head?.any isDigit then
        -- more than any double needs: zero or out of range
        if significand ≠ 0 ∧ !down then .error .malformed
        else .ok (.float (Binary64.ofMagnitude isNegative 0), rest.dropWhile isDigit)
      else double isNegative significand (if down then start - e else start + e) rest

/-- Reads an exponent if there is one. -/
def optionalExponent (isNegative : Bool) (significand : Nat) (start : Int) (cs : List Char) :
    Except Fault (Json × List Char) :=
  match cs with
  | 'e' :: rest => exponent isNegative significand start rest
  | 'E' :: rest => exponent isNegative significand start rest
  | rest => double isNegative significand start rest

/-- Reads a fraction after its point. Digits that no longer fit the significand are passed over. -/
def fraction (isNegative : Bool) (significand : Nat) (start : Int) (cs : List Char) :
    Except Fault (Json × List Char) :=
  match cs with
  | [] => .error .cutShort
  | c :: _ =>
    if !isDigit c then .error .malformed
    else
      let (n, count, rest) := gather greatest significand 0 cs
      optionalExponent isNegative n (start - count) (rest.dropWhile isDigit)

/-- A number without fraction and exponent. -/
def whole (isNegative : Bool) (n : Nat) : Json :=
  if !isNegative then .int n
  else if n = 0 ∨ Nat.pow 2 63 < n then .float (Binary64.nearest true n 1)
  else .int (-n)

/-- Reads what follows the whole digits. -/
def afterWhole (isNegative : Bool) (n : Nat) (cs : List Char) : Except Fault (Json × List Char) :=
  match cs with
  | '.' :: rest => fraction isNegative n 0 rest
  | 'e' :: rest => exponent isNegative n 0 rest
  | 'E' :: rest => exponent isNegative n 0 rest
  | rest => .ok (whole isNegative n, rest)

/-- Reads a number after its sign. -/
def read (isNegative : Bool) (cs : List Char) : Except Fault (Json × List Char) :=
  match cs with
  | [] => .error .cutShort
  | c :: rest =>
    if c = '0' then
      if rest.head?.any isDigit then .error .malformed else afterWhole isNegative 0 rest
    else if !isDigit c then .error .malformed
    else
      let (n, _, rest) := gather greatest 0 0 cs
      if rest.head?.any isDigit then
        -- digits that no longer fit only count
        let dropped := (rest.takeWhile isDigit).length
        match rest.dropWhile isDigit with
        | '.' :: rest => fraction isNegative n dropped rest
        | rest => optionalExponent isNegative n dropped rest
      else afterWhole isNegative n rest

end BoothLink.Json.Number
