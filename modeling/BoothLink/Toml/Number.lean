import BoothLink.Toml.Basic

/-!
# Reading TOML numbers

Digits may be set apart by single underscores. A decimal number has no needless zero in front; one with
a fraction or an exponent is a double, and so are the infinities and what is no number. Whole numbers
may be written in the bases two, eight and sixteen as well, without a sign. A whole number that needs
more than 64 bits and a positive double beyond the greatest one are refused.

* `Toml.Number.read?`: the number at the front of a text.
-/

namespace BoothLink.Toml.Number

/-- Digits after others, which are held in reverse; an underscore stands between two digits. -/
def digitsOnto (base : Nat) (done : List Char) : List Char → Option (List Char × List Char)
  | [] => some (done.reverse, [])
  | c :: rest =>
    if Digits.isDigit base c then digitsOnto base (c :: done) rest
    else if c = '_' then
      if rest.head?.any (Digits.isDigit base) then digitsOnto base done rest else none
    else some (done.reverse, c :: rest)

/-- A run of digits, one at least. -/
def digits? (base : Nat) (cs : List Char) : Option (List Char × List Char) :=
  if cs.head?.any (Digits.isDigit base) then digitsOnto base [] cs else none

/-- The digits before a point; a zero stands alone. -/
def whole? : List Char → Option (List Char × List Char)
  | '0' :: rest => some (['0'], rest)
  | cs => digits? 10 cs

/-- The base that a letter behind a zero announces. -/
def base? (c : Char) : Option Nat :=
  if c = 'x' then some 16 else if c = 'o' then some 8 else if c = 'b' then some 2 else none

/-- A whole number that fits. -/
def int? (n : Int) : Option Toml := if fits n then some (.int n) else none

/-- The double of a significand and a power of ten; none if it is beyond the greatest. -/
def real? (isNegative : Bool) (significand : Nat) (e : Int) : Option Toml :=
  let x := Binary64.ofDecimal isNegative significand e
  if x.shape = .infinite && !isNegative then none else some (.real x)

/-- A sign, which may be missing: whether it is negative, and the text after it. -/
def signed : List Char → Bool × List Char
  | '-' :: rest => (true, rest)
  | '+' :: rest => (false, rest)
  | cs => (false, cs)

/-- Whether an exponent begins. -/
def isExponent (cs : List Char) : Bool := cs.head?.any fun c => c = 'e' || c = 'E'

/-- Reads an exponent, which may be missing. -/
def exponent? (cs : List Char) : Option (Int × List Char) :=
  if isExponent cs then do
    let (isNegative, cs) := signed (cs.drop 1)
    let (digits, cs) ← digits? 10 cs
    let e : Int := Digits.value 10 digits
    return (if isNegative then -e else e, cs)
  else some (0, cs)

/-- Reads a decimal number after its sign. -/
def decimal? (isNegative : Bool) (cs : List Char) : Option (Toml × List Char) := do
  let (digits, cs) ← whole? cs
  match cs with
  | '.' :: cs =>
    let (fraction, cs) ← digits? 10 cs
    let (e, cs) ← exponent? cs
    let v ← real? isNegative (Digits.value 10 (digits ++ fraction)) (e - fraction.length)
    return (v, cs)
  | cs =>
    let n := Digits.value 10 digits
    if isExponent cs then
      let (e, cs) ← exponent? cs
      return (← real? isNegative n e, cs)
    else return (← int? (if isNegative then -(n : Int) else n), cs)

/-- Reads a number with or without a sign. -/
def signed? (cs : List Char) : Option (Toml × List Char) :=
  let (isNegative, cs) := signed cs
  match cs with
  | 'i' :: 'n' :: 'f' :: rest =>
    some (.real (Binary64.ofMagnitude isNegative Binary64.infinityBits), rest)
  | 'n' :: 'a' :: 'n' :: rest =>
    some (.real (Binary64.ofMagnitude isNegative (Binary64.infinityBits + Nat.pow 2 51)), rest)
  | cs => decimal? isNegative cs

/-- Reads a number at the front of a text. -/
def read? (cs : List Char) : Option (Toml × List Char) :=
  match cs with
  | '0' :: c :: rest =>
    match base? c with
    | some base => do
      let (digits, rest) ← digits? base rest
      return (← int? (Digits.value base digits), rest)
    | none => signed? cs
  | cs => signed? cs

end BoothLink.Toml.Number
