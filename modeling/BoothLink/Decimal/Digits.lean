import BoothLink.Octets

/-!
# Runs of digits

* `Digits.isDigit`, `Digits.value`: the digits of a base up to sixteen, and the number that a run of
  them spells.
* `Digits.nat?`, `Digits.int?`: the decimal number that a text is, with or without a sign.
* `Digits.width`: how many decimal digits a number has.
* **`value_eq_foldl`**: reading a digit multiplies what was read by the base and adds the digit.
-/

namespace BoothLink.Digits

/-- Whether a character is a digit of a base. -/
def isDigit (base : Nat) (c : Char) : Bool := (Octets.hexValue? c).any (· < base)

/-! ## The number that a run spells -/

/-- Digits of a base, the lowest first, joined by twos behind others, which are held in reverse: half
as many digits of the square of the base. -/
def joinOnto (base : Nat) (done : List Nat) : List Nat → List Nat
  | [] => done.reverse
  | [d] => (d :: done).reverse
  | low :: high :: rest => joinOnto base ((low + base * high) :: done) rest

/-- The number that digits spell, the lowest first. Each round squares the base, so that a long run
takes few products of long numbers; what the rounds leave is put together digit by digit. -/
def ofLowest : (rounds base : Nat) → List Nat → Nat
  | 0, base, ds => ds.foldr (fun d n => d + base * n) 0
  | _, _, [] => 0
  | _, _, [d] => d
  | rounds + 1, base, ds => ofLowest rounds (base * base) (joinOnto base [] ds)

/-- The digits of a run as numbers, the lowest first. -/
def lowestFirst (digits : List Char) : List Nat :=
  digits.foldl (fun ds c => (Octets.hexValue? c).getD 0 :: ds) []

/-- The number that digits of a base spell, the first one counting most. -/
def value (base : Nat) (digits : List Char) : Nat :=
  ofLowest digits.length.log2 base (lowestFirst digits)

/-- Joined digits spell in the square of the base what they spell apart. -/
theorem foldr_joinOnto (base : Nat) (done ds : List Nat) :
    (joinOnto base done ds).foldr (fun d n => d + base * base * n) 0 =
      done.foldl (fun n d => d + base * base * n) (ds.foldr (fun d n => d + base * n) 0) := by
  fun_induction joinOnto base done ds with
  | case1 => simp [List.foldr_reverse]
  | case2 => simp [List.foldr_reverse]
  | case3 done low high rest ih =>
    rw [ih]
    simp [Nat.mul_add, Nat.mul_assoc, Nat.add_assoc]

/-- The number of rounds is of no account. -/
theorem ofLowest_eq_foldr (rounds base : Nat) (ds : List Nat) :
    ofLowest rounds base ds = ds.foldr (fun d n => d + base * n) 0 := by
  fun_induction ofLowest rounds base ds with
  | case1 => rfl
  | case2 => rfl
  | case3 => simp
  | case4 rounds base ds _ _ ih => rw [ih, foldr_joinOnto]; rfl

theorem foldr_lowestFirst (base : Nat) (digits : List Char) (ds : List Nat) :
    (digits.foldl (fun ds c => (Octets.hexValue? c).getD 0 :: ds) ds).foldr
        (fun d n => d + base * n) 0 =
      digits.foldl (fun n c => n * base + (Octets.hexValue? c).getD 0)
        (ds.foldr (fun d n => d + base * n) 0) := by
  induction digits generalizing ds with
  | nil => rfl
  | cons c rest ih => rw [List.foldl_cons, ih, List.foldr_cons, List.foldl_cons, Nat.mul_comm base,
      Nat.add_comm]

/-- **Reading a digit multiplies what was read by the base and adds the digit.** -/
theorem value_eq_foldl (base : Nat) (digits : List Char) :
    value base digits = digits.foldl (fun n c => n * base + (Octets.hexValue? c).getD 0) 0 := by
  rw [value, ofLowest_eq_foldr, lowestFirst, foldr_lowestFirst]
  rfl

/-! ## Decimal numbers -/

/-- The decimal number that a text is; a plus may stand in front. -/
def nat? (cs : List Char) : Option Nat :=
  let digits := if cs.head? = some '+' then cs.drop 1 else cs
  if digits.isEmpty || !digits.all (isDigit 10) then none else some (value 10 digits)

/-- The decimal number that a text is; a sign may stand in front. -/
def int? (cs : List Char) : Option Int :=
  match cs with
  | '-' :: c :: rest => if c = '+' then none else (nat? (c :: rest)).map fun n => -(n : Int)
  | _ => (nat? cs).map fun n => (n : Int)

/-! ## How many digits a number has -/

/-- The least count, from one on whose power of ten is given, with a power of ten above the number. -/
def widthFrom (n : Nat) : (steps count power : Nat) → Nat
  | 0, count, _ => count
  | steps + 1, count, power =>
    if n < power then count else widthFrom n steps (count + 1) (power * 10)

/-- How many decimal digits a number has. The search begins near the end: `10 ^ 59` is just below
`2 ^ 196`. -/
def width (n : Nat) : Nat :=
  let least := n.log2 * 59 / 196 + 1
  widthFrom n (n.log2 + 1) least (Nat.pow 10 least)

end BoothLink.Digits
