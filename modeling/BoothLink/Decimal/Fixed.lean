import BoothLink.Decimal.Binary64

/-!
# A double with a set number of places

The exact value is rounded to a whole number of units of the last place, a half to the even
neighbour. The sign is written whenever it is set, also before a zero; a NaN has none.
-/

namespace BoothLink.Binary64

/-- Digits of a number, filled up with zeros on the left. -/
def paddedDigits (width n : Nat) : List Char :=
  let digits := Nat.toDigits 10 n
  List.replicate (width - digits.length) '0' ++ digits

/-- A quotient written with `places` digits after the point. -/
def fixedMagnitude (places num den : Nat) : List Char :=
  let unit := Nat.pow 10 places
  let n := roundDiv (num * unit) den
  if places = 0 then Nat.toDigits 10 n
  else Nat.toDigits 10 (n / unit) ++ '.' :: paddedDigits places (n % unit)

/-- A double written with `places` digits after the point. -/
def fixed (places : Nat) (x : Binary64) : String :=
  let sign := if x.negative then ['-'] else []
  match x.shape with
  | .nan => "NaN"
  | .infinite => String.ofList (sign ++ ['i', 'n', 'f'])
  | .finite m q =>
    let (num, den) := scaled m q
    String.ofList (sign ++ fixedMagnitude places num den)

end BoothLink.Binary64
