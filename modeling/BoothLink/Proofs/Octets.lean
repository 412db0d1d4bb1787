import Mathlib
import BoothLink.Octets

/-!
# Octets of numbers

Numbers that fit a width and the octets of that width stand for each other.

* **`value_ofNat`**, **`ofNat_value`**: the two ways there and back.
* `value_lt`: what so many octets can spell.
* `wordAt`: the number that four octets spell, `eq_ofNat_iff` for which octets they are then.
-/

namespace BoothLink.Octets

/-- **Octets of a number spell it again**, up to what their width can hold. -/
theorem value_ofNat (width n : Nat) : value (ofNat width n) = n % 256 ^ width := by
  induction width generalizing n with
  | zero => simp [ofNat, Nat.mod_one]
  | succ width ih =>
    rw [ofNat, value_concat, ih, Nat.pow_succ, Nat.mul_comm (256 ^ width) 256, Nat.mod_mul]
    simp
    omega

theorem value_lt (b : Octets) : value b < 256 ^ b.length := by
  induction h : b.length generalizing b with
  | zero => simp [List.length_eq_zero_iff.1 h]
  | succ k ih =>
    have hne : b ≠ [] := by rintro rfl; simp at h
    have hk : b.dropLast.length = k := by simp [h]
    have := ih _ hk
    have hlast := (b.getLast hne).toNat_lt
    rw [← List.dropLast_concat_getLast hne, value_concat, Nat.pow_succ]
    omega

/-- **Octets are the octets of their number.** -/
theorem ofNat_value (b : Octets) : ofNat b.length (value b) = b := by
  induction h : b.length generalizing b with
  | zero => simp [List.length_eq_zero_iff.1 h, ofNat]
  | succ k ih =>
    have hne : b ≠ [] := by rintro rfl; simp at h
    have hk : b.dropLast.length = k := by simp [h]
    have hlast := (b.getLast hne).toNat_lt
    have hb := List.dropLast_concat_getLast hne
    rw [← hb, value_concat, ofNat]
    have hdiv : (value b.dropLast * 256 + (b.getLast hne).toNat) / 256 = value b.dropLast := by
      omega
    rw [hdiv, ih _ hk]
    congr 2
    apply UInt8.toNat_inj.1
    simp

theorem eq_ofNat_iff {b : Octets} {width n : Nat} (hb : b.length = width) (hn : n < 256 ^ width) :
    b = ofNat width n ↔ value b = n := by
  constructor
  · intro h
    rw [h, value_ofNat, Nat.mod_eq_of_lt hn]
  · intro h
    rw [← h, ← hb, ofNat_value]

/-- The number that the four octets at a place spell. -/
def wordAt (b : Octets) (i : Nat) : Nat := value ((b.drop i).take 4)

theorem wordAt_lt (b : Octets) (i : Nat) : b.wordAt i < 256 ^ 4 := by
  have hlt := value_lt ((b.drop i).take 4)
  have hle : ((b.drop i).take 4).length ≤ 4 := List.length_take_le _ _
  exact hlt.trans_le (Nat.pow_le_pow_right (by decide) hle)

theorem wordAt_drop (b : Octets) (i j : Nat) : wordAt (b.drop i) j = b.wordAt (i + j) := by
  rw [wordAt, wordAt, List.drop_drop]

/-- What is cut off behind a word leaves it alone. -/
theorem wordAt_take {b : Octets} {n i : Nat} (h : i + 4 ≤ n) : wordAt (b.take n) i = b.wordAt i := by
  rw [wordAt, wordAt, List.drop_take, List.take_take, Nat.min_eq_left (by omega)]

theorem take_drop_eq_ofNat_iff {b : Octets} {i n : Nat} (h : i + 4 ≤ b.length) (hn : n < 256 ^ 4) :
    (b.drop i).take 4 = ofNat 4 n ↔ b.wordAt i = n := by
  refine eq_ofNat_iff ?_ hn
  rw [List.length_take, List.length_drop]
  omega

end BoothLink.Octets
