import Mathlib.Data.List.Basic
import BoothLink.Wire.Cursor

/-!
# Text in sixteen-bit units reads back

The octets of a text split into its units again, and its units join into its characters: a character
below U+10000 is no surrogate, and any other is a high one followed by a low one. Octets that are read
as a text are the ones that it is written as.

* `unitsOnto_flatMap`: octets two by two are the units that were written.
* `decodeOnto_unitsOf`: the units of one character, in front of any others, give that character.
* **`decode?_encode`**: a text is read back from its octets.
* `unitsOnto_even`, `units_of_decodeOnto`: octets are those of their units, and units those of the text
  that they are read as.
* **`encode_of_decode?`**: a text has no other octets than those that it is written as.
* `Unpaired`, **`decodeOnto_eq_none_iff`**: units are those of no text exactly if a half of a pair stands alone
  among them.
-/

namespace BoothLink.Utf16

/-! ## Octets and units -/

theorem unitOctets_eq (u : UInt16) :
    unitOctets u = [UInt8.ofNat (u.toNat / 256), UInt8.ofNat u.toNat] := rfl

theorem join_unitOctets (u : UInt16) :
    UInt16.ofNat ((UInt8.ofNat (u.toNat / 256)).toNat * 256 + (UInt8.ofNat u.toNat).toNat) = u := by
  have hu := u.toNat_lt
  apply UInt16.toNat_inj.1
  simp only [UInt8.toNat_ofNat', UInt16.toNat_ofNat']
  omega

theorem unitsOnto_flatMap (done us : List UInt16) :
    unitsOnto done (us.flatMap unitOctets) = done.reverse ++ us := by
  induction us generalizing done with
  | nil => simp [unitsOnto]
  | cons u us ih =>
    rw [List.flatMap_cons, unitOctets_eq, List.cons_append, List.cons_append, List.nil_append,
      unitsOnto, join_unitOctets, ih, List.reverse_cons, List.append_assoc, List.singleton_append]

theorem length_flatMap (us : List UInt16) : (us.flatMap unitOctets).length = 2 * us.length := by
  induction us with
  | nil => rfl
  | cons u us ih =>
    rw [List.flatMap_cons, List.length_append, ih, unitOctets, Octets.length_ofNat,
      List.length_cons]
    omega

theorem length_encode (s : List Char) : (encode s).length = 2 * (units s).length :=
  length_flatMap (units s)

/-! ## Units and characters -/

theorem toNat_apart (c : Char) : c.toNat < 0xD800 ∨ (0xDFFF < c.toNat ∧ c.toNat < 0x110000) :=
  c.valid

theorem isHigh_iff (u : UInt16) : isHigh u = true ↔ 0xD800 ≤ u.toNat ∧ u.toNat ≤ 0xDBFF := by
  simp [isHigh, UInt16.le_iff_toNat_le]

theorem isLow_iff (u : UInt16) : isLow u = true ↔ 0xDC00 ≤ u.toNat ∧ u.toNat ≤ 0xDFFF := by
  simp [isLow, UInt16.le_iff_toNat_le]

theorem decodeOnto_single (done : List Char) {u : UInt16} (hh : isHigh u = false)
    (hl : isLow u = false) (rest : List UInt16) :
    decodeOnto done (u :: rest) = decodeOnto (Char.ofNat u.toNat :: done) rest := by
  cases rest with
  | nil => simp [decodeOnto, hh, hl]
  | cons v rest => simp [decodeOnto, hh, hl]

theorem decodeOnto_pair (done : List Char) {u v : UInt16} (hu : isHigh u = true)
    (hv : isLow v = true) (rest : List UInt16) :
    decodeOnto done (u :: v :: rest) = decodeOnto (pair u v :: done) rest := by
  rw [decodeOnto, if_pos hu, if_pos hv]

/-- The unit of a character below U+10000, and that it gives it again. -/
theorem single_unit {c : Char} (hc : c.toNat < 0x10000) :
    ∃ u, unitsOf c = [u] ∧ isHigh u = false ∧ isLow u = false ∧ Char.ofNat u.toNat = c := by
  have hapart := toNat_apart c
  have hunit : (UInt16.ofNat c.toNat).toNat = c.toNat := by
    rw [UInt16.toNat_ofNat']
    omega
  refine ⟨_, if_pos hc, ?_, ?_, ?_⟩
  · rw [Bool.eq_false_iff, ne_eq, isHigh_iff, hunit]
    omega
  · rw [Bool.eq_false_iff, ne_eq, isLow_iff, hunit]
    omega
  · rw [hunit, Char.ofNat_toNat]

/-- The two halves of a character above U+FFFF, and that they make it up again. -/
theorem pair_halves {c : Char} (hc : 0x10000 ≤ c.toNat) :
    ∃ u v, unitsOf c = [u, v] ∧ isHigh u = true ∧ isLow v = true ∧ pair u v = c := by
  have hlt : c.toNat < 0x110000 := by
    have := toNat_apart c
    omega
  have hu : (UInt16.ofNat (0xD800 + (c.toNat - 0x10000) / 0x400)).toNat =
      0xD800 + (c.toNat - 0x10000) / 0x400 := by
    rw [UInt16.toNat_ofNat']
    omega
  have hv : (UInt16.ofNat (0xDC00 + (c.toNat - 0x10000) % 0x400)).toNat =
      0xDC00 + (c.toNat - 0x10000) % 0x400 := by
    rw [UInt16.toNat_ofNat']
    omega
  have hsum : 0x10000 + (0xD800 + (c.toNat - 0x10000) / 0x400 - 0xD800) * 0x400 +
      (0xDC00 + (c.toNat - 0x10000) % 0x400 - 0xDC00) = c.toNat := by omega
  refine ⟨_, _, if_neg (by omega), ?_, ?_, ?_⟩
  · rw [isHigh_iff, hu]
    omega
  · rw [isLow_iff, hv]
    omega
  · rw [pair, hu, hv, hsum, Char.ofNat_toNat]

/-- **The units of a character give the character**, whatever units follow. -/
theorem decodeOnto_unitsOf (done : List Char) (c : Char) (rest : List UInt16) :
    decodeOnto done (unitsOf c ++ rest) = decodeOnto (c :: done) rest := by
  by_cases hn : c.toNat < 0x10000
  · obtain ⟨u, hunit, hhigh, hlow, hc⟩ := single_unit hn
    rw [hunit, List.singleton_append, decodeOnto_single done hhigh hlow, hc]
  · obtain ⟨u, v, huv, hu, hv, hpair⟩ := pair_halves (Nat.not_lt.mp hn)
    rw [huv, List.cons_append, List.singleton_append, decodeOnto_pair done hu hv, hpair]

theorem units_cons (c : Char) (s : List Char) : units (c :: s) = unitsOf c ++ units s := rfl

theorem decodeOnto_units (done s : List Char) :
    decodeOnto done (units s) = some (done.reverse ++ s) := by
  induction s generalizing done with
  | nil => simp [units, decodeOnto]
  | cons c s ih =>
    rw [units_cons, decodeOnto_unitsOf, ih, List.reverse_cons, List.append_assoc, List.singleton_append]

/-- **A text is read back from its octets.** -/
theorem decode?_encode (s : List Char) : decode? (encode s) = some s := by
  rw [decode?, encode, unitsOnto_flatMap, List.reverse_nil, List.nil_append, decodeOnto_units]
  rfl

/-! ## Octets that are read as a text -/

theorem unitOctets_join (a b : UInt8) :
    unitOctets (UInt16.ofNat (a.toNat * 256 + b.toNat)) = [a, b] := by
  have ha := a.toNat_lt
  have hb := b.toNat_lt
  have hunit : (UInt16.ofNat (a.toNat * 256 + b.toNat)).toNat = a.toNat * 256 + b.toNat := by
    rw [UInt16.toNat_ofNat']
    omega
  rw [unitOctets_eq, hunit]
  congr 2
  · apply UInt8.toNat_inj.1
    rw [UInt8.toNat_ofNat']
    omega
  · apply UInt8.toNat_inj.1
    rw [UInt8.toNat_ofNat']
    omega

/-- Octets of even number are those of their units. -/
theorem unitsOnto_even (done : List UInt16) {b : Octets} (h : b.length % 2 = 0) :
    ∃ us, unitsOnto done b = done.reverse ++ us ∧ us.flatMap unitOctets = b := by
  fun_induction unitsOnto done b with
  | case1 done x y rest ih =>
    obtain ⟨us, hus, hrest⟩ := ih (by simp only [List.length_cons] at h; omega)
    refine ⟨UInt16.ofNat (x.toNat * 256 + y.toNat) :: us, ?_, ?_⟩
    · rw [hus, List.reverse_cons, List.append_assoc, List.singleton_append]
    · rw [List.flatMap_cons, unitOctets_join, hrest]
      rfl
  | case2 b done hshort =>
    cases b with
    | nil => exact ⟨[], (List.append_nil _).symm, rfl⟩
    | cons x rest =>
      cases rest with
      | nil => simp at h
      | cons y rest => exact absurd rfl (hshort x y rest)

/-- The unit of a character that is no surrogate. -/
theorem unitsOf_single {u : UInt16} (hh : isHigh u = false) (hl : isLow u = false) :
    unitsOf (Char.ofNat u.toNat) = [u] := by
  have hu := u.toNat_lt
  rw [Bool.eq_false_iff, ne_eq, isHigh_iff] at hh
  rw [Bool.eq_false_iff, ne_eq, isLow_iff] at hl
  have hvalid : u.toNat.isValidChar := by
    unfold Nat.isValidChar
    omega
  have hc : (Char.ofNat u.toNat).toNat = u.toNat := by
    rw [Char.ofNat, dif_pos hvalid]
    rfl
  simp only [unitsOf, hc]
  rw [if_pos hu, UInt16.ofNat_toNat]

theorem unitsOf_pair {u v : UInt16} (hu : isHigh u = true) (hv : isLow v = true) :
    unitsOf (pair u v) = [u, v] := by
  rw [isHigh_iff] at hu
  rw [isLow_iff] at hv
  have hvalid : (0x10000 + (u.toNat - 0xD800) * 0x400 + (v.toNat - 0xDC00)).isValidChar := by
    unfold Nat.isValidChar
    omega
  have hc : (pair u v).toNat = 0x10000 + (u.toNat - 0xD800) * 0x400 + (v.toNat - 0xDC00) := by
    rw [pair, Char.ofNat, dif_pos hvalid]
    rfl
  have hhigh : 0xD800 + ((pair u v).toNat - 0x10000) / 0x400 = u.toNat := by omega
  have hlow : 0xDC00 + ((pair u v).toNat - 0x10000) % 0x400 = v.toNat := by omega
  have htwo : ¬ (pair u v).toNat < 0x10000 := by omega
  simp only [unitsOf, if_neg htwo, hhigh, hlow, UInt16.ofNat_toNat]

/-- **Units that are read as a text are the units of this text.** -/
theorem units_of_decodeOnto (done : List Char) {us : List UInt16} {s : List Char}
    (h : decodeOnto done us = some s) : ∃ t, s = done.reverse ++ t ∧ units t = us := by
  fun_induction decodeOnto done us with
  | case1 done =>
    cases h
    exact ⟨[], (List.append_nil _).symm, rfl⟩
  | case2 => cases h
  | case3 done u hnot =>
    cases h
    rw [Bool.not_eq_true, Bool.or_eq_false_iff] at hnot
    exact ⟨[Char.ofNat u.toNat], List.reverse_cons, by simp [units, unitsOf_single hnot.1 hnot.2]⟩
  | case4 done u v rest hu hv ih =>
    obtain ⟨t, rfl, ht⟩ := ih h
    refine ⟨pair u v :: t, ?_, ?_⟩
    · rw [List.reverse_cons, List.append_assoc, List.singleton_append]
    · rw [units, List.flatMap_cons, unitsOf_pair hu hv]
      exact congrArg (u :: v :: ·) ht
  | case5 => cases h
  | case6 => cases h
  | case7 done u v rest hu hl ih =>
    obtain ⟨t, rfl, ht⟩ := ih h
    rw [Bool.not_eq_true] at hu hl
    refine ⟨Char.ofNat u.toNat :: t, ?_, ?_⟩
    · rw [List.reverse_cons, List.append_assoc, List.singleton_append]
    · rw [units, List.flatMap_cons, unitsOf_single hu hl]
      exact congrArg (u :: ·) ht

/-- **A text that octets of even number are read as is written as these octets.** -/
theorem encode_of_decode? {b : Octets} {s : List Char} (heven : b.length % 2 = 0)
    (h : decode? b = some s) : encode s = b := by
  obtain ⟨us, hus, hb⟩ := unitsOnto_even [] heven
  rw [decode?, hus, List.reverse_nil, List.nil_append] at h
  obtain ⟨t, rfl, ht⟩ := units_of_decodeOnto [] h
  rw [encode, ht, hb]

/-! ## Units of no text -/

/-- A half of a pair stands alone: a first one that no second one follows, or a second one that follows no
first one. -/
def Unpaired (us : List UInt16) : Prop :=
  ∃ front u back, us = front ++ u :: back ∧
    ((isHigh u = true ∧ ∀ v ∈ back.head?, isLow v = false) ∨
      (isLow u = true ∧ ∀ v ∈ front.getLast?, isHigh v = false))

theorem isLow_of_isHigh {u : UInt16} (h : isHigh u = true) : isLow u = false := by
  rw [isHigh_iff] at h
  rw [Bool.eq_false_iff, ne_eq, isLow_iff]
  omega

theorem isHigh_of_isLow {u : UInt16} (h : isLow u = true) : isHigh u = false := by
  rw [isLow_iff] at h
  rw [Bool.eq_false_iff, ne_eq, isHigh_iff]
  omega

theorem Unpaired.append (front : List UInt16) {us : List UInt16} (h : Unpaired us)
    (hfront : ∀ v ∈ front.getLast?, isHigh v = false) : Unpaired (front ++ us) := by
  obtain ⟨before, u, back, rfl, halone⟩ := h
  refine ⟨front ++ before, u, back, (List.append_assoc _ _ _).symm, halone.imp_right ?_⟩
  rintro ⟨hlow, hbefore⟩
  refine ⟨hlow, fun v hv => ?_⟩
  rw [List.getLast?_append] at hv
  cases hlast : before.getLast? with
  | none => exact hfront v (by simpa [hlast] using hv)
  | some w => exact hbefore v (by simpa [hlast] using hv)

/-- Each half in the units of a text stands at its other half. -/
theorem paired_units {s : List Char} {front back : List UInt16} {u : UInt16}
    (h : units s = front ++ u :: back) :
    (isHigh u = true → ∃ v ∈ back.head?, isLow v = true) ∧
      (isLow u = true → ∃ v ∈ front.getLast?, isHigh v = true) := by
  induction s generalizing front with
  | nil => simp [units] at h
  | cons c s ih =>
    rw [units_cons] at h
    by_cases hc : c.toNat < 0x10000
    · obtain ⟨x, hx, hhigh, hlow, -⟩ := single_unit hc
      rw [hx, List.singleton_append] at h
      cases front with
      | nil =>
        obtain ⟨rfl, rfl⟩ := List.cons.inj h
        simp [hhigh, hlow]
      | cons f front =>
        obtain ⟨rfl, hrest⟩ := List.cons.inj h
        exact (ih hrest).imp_right fun hleft hu =>
          (hleft hu).imp fun _ hv => hv.imp_left List.mem_getLast?_cons
    · obtain ⟨x, y, hxy, hx, hy, -⟩ := pair_halves (Nat.not_lt.mp hc)
      rw [hxy, List.cons_append, List.singleton_append] at h
      match front with
      | [] =>
        obtain ⟨rfl, rfl⟩ := List.cons.inj h
        simp [hy, isLow_of_isHigh hx]
      | [f] =>
        obtain ⟨rfl, hrest⟩ := List.cons.inj h
        obtain ⟨rfl, -⟩ := List.cons.inj hrest
        simp [hx, isHigh_of_isLow hy]
      | f :: g :: front =>
        obtain ⟨rfl, htail⟩ := List.cons.inj h
        obtain ⟨rfl, hrest⟩ := List.cons.inj htail
        exact (ih hrest).imp_right fun hleft hu =>
          (hleft hu).imp fun _ hv => hv.imp_left (List.mem_getLast?_cons ∘ List.mem_getLast?_cons)

theorem not_unpaired_units (s : List Char) : ¬ Unpaired (units s) := by
  rintro ⟨front, u, back, hs, ⟨hhigh, halone⟩ | ⟨hlow, halone⟩⟩
  · obtain ⟨v, hv, hlow⟩ := (paired_units hs).1 hhigh
    rw [halone v hv] at hlow
    cases hlow
  · obtain ⟨v, hv, hhigh⟩ := (paired_units hs).2 hlow
    rw [halone v hv] at hhigh
    cases hhigh

theorem unpaired_of_decodeOnto {done : List Char} {us : List UInt16} (h : decodeOnto done us = none) :
    Unpaired us := by
  fun_induction decodeOnto done us with
  | case1 => cases h
  | case2 done u hhalf =>
    refine ⟨[], u, [], rfl, ?_⟩
    simpa using hhalf
  | case3 => cases h
  | case4 done u v rest hu hv ih =>
    exact (ih h).append [u, v] (by simp [isHigh_of_isLow hv])
  | case5 done u v rest hu hv => exact ⟨[], u, v :: rest, rfl, .inl ⟨hu, by simpa using hv⟩⟩
  | case6 done u v rest hu hl => exact ⟨[], u, v :: rest, rfl, .inr ⟨hl, by simp⟩⟩
  | case7 done u v rest hu hl ih => exact (ih h).append [u] (by simpa using hu)

/-- **Units are those of no text exactly if a half of a pair stands alone among them.** -/
theorem decodeOnto_eq_none_iff {us : List UInt16} : decodeOnto [] us = none ↔ Unpaired us := by
  refine ⟨unpaired_of_decodeOnto, fun halone => ?_⟩
  cases hread : decodeOnto [] us with
  | none => rfl
  | some s =>
    obtain ⟨t, -, rfl⟩ := units_of_decodeOnto [] hread
    exact absurd halone (not_unpaired_units t)

end BoothLink.Utf16

namespace BoothLink.Read

theorem textOfUnits_encode (s : String) : textOfUnits (Utf16.encode s.toList) = .ok s := by
  have heven : ¬ (Utf16.encode s.toList).length % 2 ≠ 0 := by
    rw [Utf16.length_encode]
    omega
  rw [textOfUnits, if_neg heven, Utf16.decode?_encode]
  simp

theorem encode_of_textOfUnits {raw : Octets} {s : String} (h : textOfUnits raw = .ok s) :
    Utf16.encode s.toList = raw := by
  rw [textOfUnits] at h
  split at h
  · cases h
  · next heven =>
    split at h
    · next t ht =>
      cases h
      rw [String.toList_ofList]
      exact Utf16.encode_of_decode? (Decidable.not_not.mp heven) ht
    · cases h

end BoothLink.Read
