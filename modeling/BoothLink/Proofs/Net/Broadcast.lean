import Mathlib
import BoothLink.Net.Broadcast

/-!
# The last address of a network

An announcement goes to the greatest of the addresses that agree with the address of an interface on the
bits of its mask, whichever bits these are. The addresses of several interfaces stand in the order in which
they first come up, each once. Without any interface there is one address all the same.

* `Ipv4.bit`, with `Ipv4.eq_of_bits` and `Ipv4.le_of_bits`: addresses by their bits.
* `Ipv4.Agree`: the addresses of one network.
* `Ipv4.isGreatest_broadcast`, `Ipv4.broadcast_eq_iff`: the last address of a network, and when two networks
  have the same.
* `mem_foldl_addTarget`, `pairwise_foldl_addTarget`: addresses that are added one after the other.
* **`broadcastTargets_greatest`**: to whom an announcement goes.
-/

namespace BoothLink

namespace Ipv4

variable {a b mask : Ipv4} {i : ℕ}

/-! ## Bits -/

/-- A bit of an address, counted from the least significant one. -/
def bit (a : Ipv4) (i : ℕ) : Bool := a.word.toNat.testBit i

/-- Addresses stand in the order of their numbers. -/
instance : LE Ipv4 := ⟨fun a b => a.word ≤ b.word⟩

theorem le_iff : a ≤ b ↔ a.word.toNat ≤ b.word.toNat := UInt32.le_iff_toNat_le

theorem eq_of_bits (h : ∀ i, a.bit i = b.bit i) : a = b := by
  obtain ⟨v⟩ := a
  obtain ⟨w⟩ := b
  rw [mk.injEq, ← UInt32.toNat_inj]
  exact Nat.eq_of_testBit_eq h

theorem le_antisymm (hab : a ≤ b) (hba : b ≤ a) : a = b := by
  obtain ⟨v⟩ := a
  obtain ⟨w⟩ := b
  rw [mk.injEq, ← UInt32.toNat_inj]
  exact Nat.le_antisymm (le_iff.mp hab) (le_iff.mp hba)

/-- An address whose bits are all set in another one is not greater. -/
theorem le_of_bits (h : ∀ i, a.bit i → b.bit i) : a ≤ b := by
  have hor : a.word.toNat ||| b.word.toNat = b.word.toNat := by
    refine Nat.eq_of_testBit_eq fun i => ?_
    rw [Nat.testBit_or]
    have hi : a.bit i → b.bit i := h i
    simp only [bit] at hi
    cases ha : a.word.toNat.testBit i <;> simp_all
  rw [le_iff, ← hor]
  exact Nat.left_le_or

theorem bit_above (a : Ipv4) (h : 32 ≤ i) : a.bit i = false :=
  Nat.testBit_lt_two_pow (a.word.toNat_lt.trans_le (Nat.pow_le_pow_right (by omega) h))

theorem bit_broadcast (a mask : Ipv4) (i : ℕ) :
    (a.broadcast mask).bit i = (a.bit i || decide (i < 32) && !mask.bit i) := by
  have hsize : UInt32.size - 1 - mask.word.toNat = 2 ^ 32 - (mask.word.toNat + 1) := by
    have : UInt32.size = 2 ^ 32 := rfl
    omega
  simp only [bit, broadcast, UInt32.toNat_or, UInt32.toNat_not, Nat.testBit_or, hsize,
    Nat.testBit_two_pow_sub_succ mask.word.toNat_lt]

/-! ## Networks -/

/-- Two addresses agree on the bits of a mask. -/
def Agree (mask a b : Ipv4) : Prop := ∀ i, mask.bit i → a.bit i = b.bit i

theorem agree_broadcast (a mask : Ipv4) : Agree mask a (a.broadcast mask) := by
  intro i hi
  simp [bit_broadcast, hi]

/-- **The last address of a network is the greatest in it.** -/
theorem isGreatest_broadcast (a mask : Ipv4) : IsGreatest {b | Agree mask a b} (a.broadcast mask) := by
  refine ⟨agree_broadcast a mask, fun b hb => le_of_bits fun i hi => ?_⟩
  rw [bit_broadcast]
  cases hmask : mask.bit i with
  | true => simp [hb i hmask, hi]
  | false =>
    by_cases hlow : i < 32
    · simp [hlow]
    · simp [bit_above b (Nat.not_lt.mp hlow)] at hi

theorem isGreatest_iff : IsGreatest {b | Agree mask a b} b ↔ b = a.broadcast mask := by
  have hlast := isGreatest_broadcast a mask
  constructor
  · intro h
    exact le_antisymm (hlast.2 h.1) (h.2 hlast.1)
  · rintro rfl
    exact hlast

/-- **Networks under one mask have the same last address just if they are the same.** -/
theorem broadcast_eq_iff : a.broadcast mask = b.broadcast mask ↔ Agree mask a b := by
  constructor
  · intro h i hi
    rw [agree_broadcast a mask i hi, agree_broadcast b mask i hi, h]
  · intro h
    refine eq_of_bits fun i => ?_
    rw [bit_broadcast, bit_broadcast]
    cases hmask : mask.bit i with
    | true => simp [h i hmask]
    | false =>
      by_cases hlow : i < 32
      · simp [hlow]
      · simp [bit_above _ (Nat.not_lt.mp hlow)]

end Ipv4

/-! ## Several interfaces -/

variable {as : List Ipv4} {t : Ipv4}

theorem mem_addTarget {a : Ipv4} : t ∈ addTarget as a ↔ t ∈ as ∨ t = a := by
  unfold addTarget
  split_ifs <;> simp_all

theorem mem_foldl_addTarget : t ∈ as.foldl addTarget [] ↔ t ∈ as := by
  induction as using List.reverseRecOn with
  | nil => rfl
  | append_singleton as a ih => simp [List.foldl_append, mem_addTarget, ih]

/-- **Addresses stand where they first came up.** -/
theorem pairwise_foldl_addTarget (as : List Ipv4) :
    (as.foldl addTarget []).Pairwise fun x y => as.idxOf x < as.idxOf y := by
  induction as using List.reverseRecOn with
  | nil => exact .nil
  | append_singleton as a ih =>
    -- Where an address has come up does not change by what comes later.
    have hkept : ∀ x ∈ as.foldl addTarget [], (as ++ [a]).idxOf x = as.idxOf x :=
      fun x hx => List.idxOf_append_of_mem (mem_foldl_addTarget.mp hx)
    have hbefore : (as.foldl addTarget []).Pairwise fun x y => (as ++ [a]).idxOf x < (as ++ [a]).idxOf y := by
      refine ih.imp_of_mem fun {x y} hx hy hlt => ?_
      rwa [hkept x hx, hkept y hy]
    rw [List.foldl_append, List.foldl_cons, List.foldl_nil, addTarget]
    split_ifs with ha
    · exact hbefore
    · refine List.pairwise_append.mpr ⟨hbefore, List.pairwise_singleton _ _, fun x hx y hy => ?_⟩
      obtain rfl := List.mem_singleton.mp hy
      have hnew : y ∉ as := fun hy => ha (mem_foldl_addTarget.mpr hy)
      rw [hkept x hx, List.idxOf_append_of_notMem hnew]
      have := List.idxOf_lt_length_of_mem (mem_foldl_addTarget.mp hx)
      omega

/-- The last addresses of the networks of interfaces. -/
def lastAddresses (interfaces : List (Ipv4 × Ipv4)) : List Ipv4 :=
  interfaces.map fun (address, mask) => address.broadcast mask

theorem broadcastTargets_nil : broadcastTargets [] = [.limitedBroadcast] := rfl

theorem broadcastTargets_eq {interfaces : List (Ipv4 × Ipv4)} (h : interfaces ≠ []) :
    broadcastTargets interfaces = (lastAddresses interfaces).foldl addTarget [] := by
  have hfold : interfaces.foldl (fun done (a, mask) => addTarget done (a.broadcast mask)) [] =
      (lastAddresses interfaces).foldl addTarget [] := by
    rw [lastAddresses, List.foldl_map]
  obtain ⟨i, hi⟩ := List.exists_mem_of_ne_nil _ h
  have hmem : i.1.broadcast i.2 ∈ (lastAddresses interfaces).foldl addTarget [] :=
    mem_foldl_addTarget.mpr (List.mem_map_of_mem hi)
  have hsome : ((lastAddresses interfaces).foldl addTarget []).isEmpty = false := by
    rw [List.isEmpty_eq_false_iff]
    exact List.ne_nil_of_mem hmem
  simp only [broadcastTargets, hfold, hsome]
  rfl

theorem pairwise_broadcastTargets (interfaces : List (Ipv4 × Ipv4)) :
    (broadcastTargets interfaces).Pairwise fun x y =>
      (lastAddresses interfaces).idxOf x < (lastAddresses interfaces).idxOf y := by
  cases interfaces with
  | nil => exact List.pairwise_singleton _ _
  | cons i rest =>
    rw [broadcastTargets_eq (List.cons_ne_nil i rest)]
    exact pairwise_foldl_addTarget _

theorem mem_broadcastTargets {interfaces : List (Ipv4 × Ipv4)} : t ∈ broadcastTargets interfaces ↔
    t ∈ lastAddresses interfaces ∨ interfaces = [] ∧ t = .limitedBroadcast := by
  cases interfaces with
  | nil => simp [broadcastTargets_nil, lastAddresses]
  | cons i rest => simp [broadcastTargets_eq, mem_foldl_addTarget]

/-- **An announcement goes to the last address of the network of each interface**, and to no other: to the
greatest that agrees with the address of the interface on the bits of its mask. Each stands once, where it
first came up. Without any interface it goes to everyone on the local network. Two interfaces with one mask
share an address just if theirs agree on its bits. -/
theorem broadcastTargets_greatest (interfaces : List (Ipv4 × Ipv4)) :
    (∀ i ∈ interfaces, ∃ t ∈ broadcastTargets interfaces, IsGreatest {b | Ipv4.Agree i.2 i.1 b} t) ∧
      (∀ t ∈ broadcastTargets interfaces, (∃ i ∈ interfaces, IsGreatest {b | Ipv4.Agree i.2 i.1 b} t) ∨
        interfaces = [] ∧ t = .limitedBroadcast) ∧
      (broadcastTargets interfaces).Nodup ∧
      ((broadcastTargets interfaces).Pairwise fun x y =>
        (lastAddresses interfaces).idxOf x < (lastAddresses interfaces).idxOf y) ∧
      broadcastTargets interfaces ≠ [] ∧
      (interfaces = [] → broadcastTargets interfaces = [.limitedBroadcast]) ∧
      ∀ a b mask : Ipv4, (∀ t, IsGreatest {c | Ipv4.Agree mask a c} t ↔ t = a.broadcast mask) ∧
        (a.broadcast mask = b.broadcast mask ↔ Ipv4.Agree mask a b) := by
  have hpairwise := pairwise_broadcastTargets interfaces
  refine ⟨fun i hi => ?_, fun t ht => ?_, ?_, hpairwise, ?_, ?_, fun a b mask => ?_⟩
  · exact ⟨_, mem_broadcastTargets.mpr (.inl (List.mem_map_of_mem hi)), Ipv4.isGreatest_broadcast i.1 i.2⟩
  · refine (mem_broadcastTargets.mp ht).imp_left fun hlast => ?_
    obtain ⟨i, hi, rfl⟩ := List.mem_map.mp hlast
    exact ⟨i, hi, Ipv4.isGreatest_broadcast i.1 i.2⟩
  · refine hpairwise.imp fun {x y} hlt hxy => ?_
    rw [hxy] at hlt
    exact lt_irrefl _ hlt
  · cases interfaces with
    | nil => simp [broadcastTargets_nil]
    | cons i rest => exact List.ne_nil_of_mem (mem_broadcastTargets.mpr (.inl List.mem_cons_self))
  · rintro rfl
    rfl
  · exact ⟨fun t => Ipv4.isGreatest_iff, Ipv4.broadcast_eq_iff⟩

/-- Two interfaces of one network, with another one between them whose mask has a gap. -/
example : broadcastTargets [(.ofParts 10 1 2 3, .ofParts 255 255 0 0), (.ofParts 10 1 2 3, .ofParts 255 0 255 0),
    (.ofParts 10 1 9 9, .ofParts 255 255 0 0)] = [.ofParts 10 1 255 255, .ofParts 10 255 2 255] := by
  decide

end BoothLink
