import Mathlib
import BoothLink.Decimal.Digits

/-!
# How many digits a number has

The search for the number of digits begins near the end and passes no power of ten above the number, so
it ends at the first one.

* **`ten_pow_le_of_width`**, **`lt_ten_pow_width`**: the powers of ten between which a number lies.
-/

namespace BoothLink.Digits

theorem lt_ten_pow_widthFrom (n steps count : Nat) (h : n < 10 ^ (count + steps)) :
    n < 10 ^ widthFrom n steps count (10 ^ count) := by
  induction steps generalizing count with
  | zero => simpa [widthFrom] using h
  | succ steps ih =>
    rw [widthFrom]
    split
    · assumption
    · exact ih (count + 1) (by rwa [Nat.add_right_comm])

theorem ten_pow_le_of_widthFrom (n steps count : Nat) (h : 10 ^ (count - 1) ≤ n) :
    10 ^ (widthFrom n steps count (10 ^ count) - 1) ≤ n := by
  induction steps generalizing count with
  | zero => simpa [widthFrom] using h
  | succ steps ih =>
    rw [widthFrom]
    split
    · assumption
    · exact ih (count + 1) (by simp; omega)

theorem lt_ten_pow_width (n : Nat) : n < 10 ^ width n := by
  refine lt_ten_pow_widthFrom n _ _ ?_
  calc n < 2 ^ (n.log2 + 1) := Nat.lt_log2_self
    _ ≤ 10 ^ (n.log2 + 1) := Nat.pow_le_pow_left (by decide) _
    _ ≤ _ := Nat.pow_le_pow_right (by decide) (by omega)

theorem ten_pow_le_of_width (n : Nat) (h : n ≠ 0) : 10 ^ (width n - 1) ≤ n := by
  refine ten_pow_le_of_widthFrom n _ _ (Nat.le_trans ?_ (Nat.log2_self_le h))
  rw [Nat.add_sub_cancel, ← Nat.pow_le_pow_iff_left (by decide : 196 ≠ 0), ← Nat.pow_mul,
    ← Nat.pow_mul]
  calc 10 ^ (n.log2 * 59 / 196 * 196)
    _ ≤ 10 ^ (n.log2 * 59) := Nat.pow_le_pow_right (by decide) (Nat.div_mul_le_self _ _)
    _ = (10 ^ 59) ^ n.log2 := by rw [← Nat.pow_mul, Nat.mul_comm]
    _ ≤ (2 ^ 196) ^ n.log2 := Nat.pow_le_pow_left (by decide) _
    _ = 2 ^ (n.log2 * 196) := by rw [← Nat.pow_mul, Nat.mul_comm]

end BoothLink.Digits
