import Mathlib.Data.Nat.Digits.Defs
import BoothLink.Decimal.Digits

/-!
# Numbers as they are written

A number is written with decimal digits, of which the first is a zero only if it is the only one.

* `Digits.decimal_of_mem_toDigits`: they are digits.
* `Digits.toDigits_cons`: the first of them.
* `Digits.le_ofDigitChars`: a number that is read from the front grows.
* **`Digits.value_toDigits`**: they spell the number.
-/

namespace BoothLink.Digits

/-- A written number consists of digits. -/
theorem decimal_of_mem_toDigits {n : Nat} {c : Char} (h : c ∈ Nat.toDigits 10 n) :
    48 ≤ c.toNat ∧ c.toNat ≤ 57 := by
  have hdigit := Nat.isDigit_of_mem_toDigits (by decide) (by decide) h
  simpa [Char.isDigit, UInt32.le_iff_toNat_le] using hdigit

/-- A written number begins with a digit, and with a zero only if it is zero. -/
theorem toDigits_cons (n : Nat) :
    ∃ c cs, Nat.toDigits 10 n = c :: cs ∧ (c = '0' → n = 0 ∧ cs = []) := by
  induction n using Nat.strongRecOn with
  | ind n ih =>
    by_cases hsmall : n < 10
    · have hdigit : ∀ d < 10, d.digitChar = '0' → d = 0 := by decide
      exact ⟨n.digitChar, [], Nat.toDigits_of_lt_base hsmall, fun hzero => ⟨hdigit n hsmall hzero, rfl⟩⟩
    · obtain ⟨c, cs, hc, hzero⟩ := ih (n / 10) (by omega)
      rw [Nat.toDigits_of_base_le (by decide) (Nat.not_lt.mp hsmall), hc]
      refine ⟨c, _, rfl, fun h => ?_⟩
      have := (hzero h).1
      omega

/-- A number that is read from the front grows. -/
theorem le_ofDigitChars (cs : List Char) (n : Nat) : n ≤ Nat.ofDigitChars 10 cs n := by
  induction cs generalizing n with
  | nil => exact Nat.le_refl n
  | cons c cs ih =>
    rw [Nat.ofDigitChars_cons]
    exact Nat.le_trans (by omega) (ih _)

theorem hexValue?_of_decimal {c : Char} (h : 48 ≤ c.toNat ∧ c.toNat ≤ 57) :
    Octets.hexValue? c = some (c.toNat - 48) := if_pos h

theorem isDigit_of_decimal {c : Char} (h : 48 ≤ c.toNat ∧ c.toNat ≤ 57) : isDigit 10 c = true := by
  rw [isDigit, hexValue?_of_decimal h, Option.any_some, decide_eq_true_eq]
  omega

/-- **The digits of a number spell it.** -/
theorem value_toDigits (n : Nat) : value 10 (Nat.toDigits 10 n) = n := by
  have hsame : ∀ (cs : List Char) (m : Nat), (∀ c ∈ cs, 48 ≤ c.toNat ∧ c.toNat ≤ 57) →
      cs.foldl (fun n c => n * 10 + (Octets.hexValue? c).getD 0) m = Nat.ofDigitChars 10 cs m := by
    intro cs
    induction cs with
    | nil => exact fun _ _ => rfl
    | cons c cs ih =>
      intro m h
      rw [List.foldl_cons, Nat.ofDigitChars_cons, hexValue?_of_decimal (h c List.mem_cons_self),
        ih _ fun d hd => h d (List.mem_cons_of_mem c hd), Nat.mul_comm]
      rfl
  rw [value_eq_foldl, hsame _ 0 fun c hc => decimal_of_mem_toDigits hc, Nat.ofDigitChars_ten_toDigits]

end BoothLink.Digits
