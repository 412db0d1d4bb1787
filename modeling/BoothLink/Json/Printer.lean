import BoothLink.Json.Basic
import BoothLink.Decimal.Shortest
import BoothLink.Octets

/-!
# Writing JSON

The compact form: no blanks, fields in key order. A text escapes the quote, the backslash and the
characters below U+0020 and nothing else. A double is written with the fewest digits that identify
it, positionally and with a fraction where the power of its leading digit is between -5 and 15, else
with a signed exponent.

* `Json.print`: the text of a value.
* `Json.quote`: the text of a string.
-/

namespace BoothLink.Json

/-! ## Texts -/

/-- A character as it stands between quotes. -/
def escape (c : Char) : List Char :=
  if c = '"' then ['\\', '"']
  else if c = '\\' then ['\\', '\\']
  else if c = '\n' then ['\\', 'n']
  else if c = '\r' then ['\\', 'r']
  else if c = '\t' then ['\\', 't']
  else if c.toNat = 8 then ['\\', 'b']
  else if c.toNat = 12 then ['\\', 'f']
  else if c.toNat < 32 then ['\\', 'u', '0', '0'] ++ Octets.hexPair (UInt8.ofNat c.toNat)
  else [c]

def quote (s : List Char) : List Char := '"' :: (s.flatMap escape ++ ['"'])

/-! ## Numbers -/

/-- The digits of a whole number, behind a sign if it is negative. -/
def intChars : Int → List Char
  | .ofNat n => Nat.toDigits 10 n
  | .negSucc n => '-' :: Nat.toDigits 10 (n + 1)

/-- The least and the greatest power of the leading digit that is written positionally. -/
def positionalFrom : Int := -5
def positionalTo : Int := 15

/-- Digits with the point in its place and at least one digit on either side of it. -/
def positional (d : Decimal) : List Char :=
  let digits := Nat.toDigits 10 d.digits
  let point := d.exponent + digits.length
  if 0 ≤ d.exponent then digits ++ List.replicate d.exponent.toNat '0' ++ ['.', '0']
  else if 0 < point then digits.take point.toNat ++ '.' :: digits.drop point.toNat
  else '0' :: '.' :: (List.replicate (-point).toNat '0' ++ digits)

/-- One digit, the others after a point if there are any, and the signed exponent. -/
def scientific (d : Decimal) : List Char :=
  let e := d.leading
  let exponent := 'e' :: (if 0 ≤ e then '+' else '-') :: Nat.toDigits 10 e.natAbs
  match Nat.toDigits 10 d.digits with
  | [] => exponent
  | [c] => c :: exponent
  | c :: more => c :: '.' :: (more ++ exponent)

/-- A decimal in the layout that its leading digit asks for. -/
def decimalChars (d : Decimal) : List Char :=
  if d.digits = 0 ∨ (positionalFrom ≤ d.leading ∧ d.leading ≤ positionalTo) then positional d
  else scientific d

/-- A double; what is not finite has no number and is written as null. -/
def floatChars (x : Binary64) : List Char :=
  match x.shape with
  | .finite m q =>
    let digits := decimalChars (Binary64.shortest m q)
    if x.negative then '-' :: digits else digits
  | _ => ['n', 'u', 'l', 'l']

/-! ## Values -/

mutual

/-- The compact text of a value. -/
def chars : Json → List Char
  | null => ['n', 'u', 'l', 'l']
  | bool true => ['t', 'r', 'u', 'e']
  | bool false => ['f', 'a', 'l', 's', 'e']
  | int n => intChars n
  | float x => floatChars x
  | str s => quote s.toList
  | arr items => '[' :: itemChars items
  | obj fields => '\x7b' :: fieldChars fields

/-- The items of an array, with the bracket that ends it. -/
def itemChars : List Json → List Char
  | [] => [']']
  | [v] => chars v ++ [']']
  | v :: w :: rest => chars v ++ ',' :: itemChars (w :: rest)

/-- The fields of an object, with the brace that ends it. -/
def fieldChars : List (String × Json) → List Char
  | [] => ['\x7d']
  | [(k, v)] => quote k.toList ++ ':' :: (chars v ++ ['\x7d'])
  | (k, v) :: f :: rest => quote k.toList ++ ':' :: (chars v ++ ',' :: fieldChars (f :: rest))

end

/-- The compact text of a value. -/
def print (v : Json) : String := String.ofList (chars v)

end BoothLink.Json
