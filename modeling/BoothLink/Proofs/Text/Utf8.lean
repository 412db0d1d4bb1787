import Mathlib
import BoothLink.Wire.Cursor

/-!
# Octets of text

Decoding gives back every text from its octets: the octets of a character are of one of four lengths, the
first octet says which, and the second is none that a longer form or a surrogate would have. For the same
reason octets that are read as a text are the ones that it is written as.

* `Utf8.decodeOnto_below_0x800`, `Utf8.decodeOnto_below_0x10000`, `Utf8.decodeOnto_from_0x10000`: characters of
  two, three and four octets.
* `Utf8.decodeOnto_encodeChar`: a character.
* **`Utf8.decode_encode`**: a text.
* `Utf8.encodeChar_join_two`, `Utf8.encodeChar_join_three`, `Utf8.encodeChar_join_four`: octets that are read as
  a character are its own.
* **`Utf8.encode_of_decode`**: a text has no other octets than those that it is written as.
* `Utf8.Misspelled`, **`Utf8.not_misspelled_infix`**: the forms in which no number is a character's; no text has
  one of them among its octets.
-/

namespace BoothLink.Utf8

variable {index : Nat} {done : List Char} {rest : Octets} {a b c d : UInt8}

/-! ## Octets by their numbers -/

theorem widthOf_eq (o : UInt8) : widthOf o =
    if o.toNat < 0x80 then 1 else if o.toNat < 0xC2 then 0 else if o.toNat < 0xE0 then 2
    else if o.toNat < 0xF0 then 3 else if o.toNat < 0xF5 then 4 else 0 := by
  simp [widthOf, UInt8.lt_iff_toNat_lt]

theorem widthOf_le (o : UInt8) : widthOf o ≤ 4 := by
  rw [widthOf_eq]
  split_ifs <;> omega

theorem widthOf_eq_one_iff : widthOf a = 1 ↔ a.toNat < 0x80 := by
  rw [widthOf_eq]
  split_ifs <;> simp <;> omega

theorem widthOf_eq_two_iff : widthOf a = 2 ↔ 0xC2 ≤ a.toNat ∧ a.toNat < 0xE0 := by
  rw [widthOf_eq]
  split_ifs <;> simp <;> omega

theorem widthOf_eq_three_iff : widthOf a = 3 ↔ 0xE0 ≤ a.toNat ∧ a.toNat < 0xF0 := by
  rw [widthOf_eq]
  split_ifs <;> simp <;> omega

theorem widthOf_eq_four_iff : widthOf a = 4 ↔ 0xF0 ≤ a.toNat ∧ a.toNat < 0xF5 := by
  rw [widthOf_eq]
  split_ifs <;> simp <;> omega

theorem isTail_iff : isTail a = true ↔ 0x80 ≤ a.toNat ∧ a.toNat ≤ 0xBF := by
  simp [isTail, UInt8.le_iff_toNat_le]

theorem mayFollow_iff : mayFollow a b = true ↔ 0x80 ≤ b.toNat ∧ b.toNat ≤ 0xBF ∧
    (a.toNat = 0xE0 → 0xA0 ≤ b.toNat) ∧ (a.toNat = 0xED → b.toNat ≤ 0x9F) ∧
      (a.toNat = 0xF0 → 0x90 ≤ b.toNat) ∧ (a.toNat = 0xF4 → b.toNat ≤ 0x8F) := by
  simp only [mayFollow, isTail, beq_iff_eq, ← UInt8.toNat_inj, UInt8.le_iff_toNat_le]
  split_ifs <;> simp_all <;> omega

/-! ## Characters -/

theorem decodeOnto_one (ha : a.toNat < 0x80) : decodeOnto index done (a :: rest) =
    decodeOnto (index + 1) (join [a.toNat] :: done) rest := by
  have hwidth : widthOf a = 1 := widthOf_eq_one_iff.mpr ha
  rw [decodeOnto.eq_def]
  simp [hwidth]

theorem decodeOnto_two (ha : 0xC2 ≤ a.toNat ∧ a.toNat < 0xE0) (hb : mayFollow a b = true) :
    decodeOnto index done (a :: b :: rest) =
      decodeOnto (index + 2) (join [a.toNat - 0xC0, tail b] :: done) rest := by
  have hwidth : widthOf a = 2 := widthOf_eq_two_iff.mpr ha
  rw [decodeOnto.eq_def]
  simp [hwidth, hb]

theorem decodeOnto_three (ha : 0xE0 ≤ a.toNat ∧ a.toNat < 0xF0) (hb : mayFollow a b = true)
    (hc : isTail c = true) : decodeOnto index done (a :: b :: c :: rest) =
      decodeOnto (index + 3) (join [a.toNat - 0xE0, tail b, tail c] :: done) rest := by
  have hwidth : widthOf a = 3 := widthOf_eq_three_iff.mpr ha
  rw [decodeOnto.eq_def]
  simp [hwidth, hb, hc]

theorem decodeOnto_four (ha : 0xF0 ≤ a.toNat ∧ a.toNat < 0xF5) (hb : mayFollow a b = true)
    (hc : isTail c = true) (hd : isTail d = true) :
    decodeOnto index done (a :: b :: c :: d :: rest) =
      decodeOnto (index + 4) (join [a.toNat - 0xF0, tail b, tail c, tail d] :: done) rest := by
  have hwidth : widthOf a = 4 := widthOf_eq_four_iff.mpr ha
  rw [decodeOnto.eq_def]
  simp [hwidth, hb, hc, hd]

theorem toNat_octet {n : Nat} (h : n < 256) : (UInt8.ofNat n).toNat = n := by
  rw [UInt8.toNat_ofNat']
  omega

/-- A character from its number. -/
theorem join_eq {payloads : List Nat} {e : Char}
    (h : payloads.foldl (fun n p => n * 64 + p) 0 = e.toNat) : join payloads = e := by
  rw [join, h, Char.ofNat_toNat]

/-- What is left of an octet without its mark. -/
theorem payload_eq {mark n : Nat} (h : a.toNat = n + mark) : a.toNat - mark = n := by
  rw [h, Nat.add_sub_cancel]

theorem tail_eq {n : Nat} (h : a.toNat = n + 0x80) : tail a = n := payload_eq h

variable {e : Char}

theorem decodeOnto_below_0x800 (hlow : 0x7F < e.toNat) (hhigh : e.toNat ≤ 0x7FF) :
    decodeOnto index done (UInt8.ofNat (e.toNat / 64 % 32 + 192) :: UInt8.ofNat (e.toNat % 64 + 128) :: rest) =
      decodeOnto (index + 2) (e :: done) rest := by
  have ha := toNat_octet (n := e.toNat / 64 % 32 + 192) (by omega)
  have hb := toNat_octet (n := e.toNat % 64 + 128) (by omega)
  generalize UInt8.ofNat (e.toNat / 64 % 32 + 192) = a at ha ⊢
  generalize UInt8.ofNat (e.toNat % 64 + 128) = b at hb ⊢
  have hjoin : join [a.toNat - 0xC0, tail b] = e := by
    refine join_eq ?_
    simp only [payload_eq ha, tail_eq hb, List.foldl_cons, List.foldl_nil]
    omega
  rw [decodeOnto_two (by omega) (mayFollow_iff.mpr (by omega)), hjoin]

theorem decodeOnto_below_0x10000 (hlow : 0x7FF < e.toNat) (hhigh : e.toNat ≤ 0xFFFF) :
    decodeOnto index done (UInt8.ofNat (e.toNat / 4096 % 16 + 224) :: UInt8.ofNat (e.toNat / 64 % 64 + 128) ::
      UInt8.ofNat (e.toNat % 64 + 128) :: rest) = decodeOnto (index + 3) (e :: done) rest := by
  have hvalid : e.toNat < 0xD800 ∨ (0xDFFF < e.toNat ∧ e.toNat < 0x110000) := e.valid
  have ha := toNat_octet (n := e.toNat / 4096 % 16 + 224) (by omega)
  have hb := toNat_octet (n := e.toNat / 64 % 64 + 128) (by omega)
  have hc := toNat_octet (n := e.toNat % 64 + 128) (by omega)
  generalize UInt8.ofNat (e.toNat / 4096 % 16 + 224) = a at ha ⊢
  generalize UInt8.ofNat (e.toNat / 64 % 64 + 128) = b at hb ⊢
  generalize UInt8.ofNat (e.toNat % 64 + 128) = c at hc ⊢
  have hjoin : join [a.toNat - 0xE0, tail b, tail c] = e := by
    refine join_eq ?_
    simp only [payload_eq ha, tail_eq hb, tail_eq hc, List.foldl_cons, List.foldl_nil]
    omega
  rw [decodeOnto_three (by omega) (mayFollow_iff.mpr (by omega)) (isTail_iff.mpr (by omega)), hjoin]

theorem decodeOnto_from_0x10000 (hlow : 0xFFFF < e.toNat) :
    decodeOnto index done (UInt8.ofNat (e.toNat / 262144 % 8 + 240) ::
      UInt8.ofNat (e.toNat / 4096 % 64 + 128) :: UInt8.ofNat (e.toNat / 64 % 64 + 128) ::
        UInt8.ofNat (e.toNat % 64 + 128) :: rest) = decodeOnto (index + 4) (e :: done) rest := by
  have hvalid : e.toNat < 0xD800 ∨ (0xDFFF < e.toNat ∧ e.toNat < 0x110000) := e.valid
  have ha := toNat_octet (n := e.toNat / 262144 % 8 + 240) (by omega)
  have hb := toNat_octet (n := e.toNat / 4096 % 64 + 128) (by omega)
  have hc := toNat_octet (n := e.toNat / 64 % 64 + 128) (by omega)
  have hd := toNat_octet (n := e.toNat % 64 + 128) (by omega)
  generalize UInt8.ofNat (e.toNat / 262144 % 8 + 240) = a at ha ⊢
  generalize UInt8.ofNat (e.toNat / 4096 % 64 + 128) = b at hb ⊢
  generalize UInt8.ofNat (e.toNat / 64 % 64 + 128) = c at hc ⊢
  generalize UInt8.ofNat (e.toNat % 64 + 128) = d at hd ⊢
  have hjoin : join [a.toNat - 0xF0, tail b, tail c, tail d] = e := by
    refine join_eq ?_
    simp only [payload_eq ha, tail_eq hb, tail_eq hc, tail_eq hd, List.foldl_cons, List.foldl_nil]
    omega
  rw [decodeOnto_four (by omega) (mayFollow_iff.mpr (by omega)) (isTail_iff.mpr (by omega))
    (isTail_iff.mpr (by omega)), hjoin]

/-- **The octets of a character give the character**, whatever octets follow. -/
theorem decodeOnto_encodeChar (e : Char) :
    decodeOnto index done (String.utf8EncodeChar e ++ rest) =
      decodeOnto (index + (String.utf8EncodeChar e).length) (e :: done) rest := by
  have hn : e.val.toNat = e.toNat := rfl
  simp only [String.utf8EncodeChar, hn]
  split_ifs with hone htwo hthree
  · have ha := toNat_octet (n := e.toNat) (by omega)
    rw [List.singleton_append, decodeOnto_one (by omega), join_eq (e := e) (by simp [ha])]
    rfl
  · exact decodeOnto_below_0x800 (by omega) htwo
  · exact decodeOnto_below_0x10000 (by omega) hthree
  · exact decodeOnto_from_0x10000 (by omega)

theorem encode_cons (e : Char) (s : List Char) :
    encode (e :: s) = String.utf8EncodeChar e ++ encode s := rfl

theorem decodeOnto_encode (index : Nat) (done s : List Char) :
    decodeOnto index done (encode s) = .ok (done.reverse ++ s) := by
  induction s generalizing index done with
  | nil => simp [encode, decodeOnto]
  | cons e s ih =>
    rw [encode_cons, decodeOnto_encodeChar, ih, List.reverse_cons, List.append_assoc, List.singleton_append]

/-- **A text is read back from its octets.** -/
theorem decode_encode (s : List Char) : decode (encode s) = .ok s := decodeOnto_encode 0 [] s

/-! ## Octets that are read as a text -/

/-- A number that is a character's is the number of the character. -/
theorem toNat_join {payloads : List Nat} {n : Nat} (h : payloads.foldl (fun n p => n * 64 + p) 0 = n)
    (hn : n.isValidChar) : (join payloads).val.toNat = n := by
  rw [join, h, Char.ofNat, dif_pos hn]
  rfl

theorem octet_eq {n : Nat} (h : n = a.toNat) : UInt8.ofNat n = a := by
  rw [h, UInt8.ofNat_toNat]

theorem encodeChar_join_one (ha : a.toNat < 0x80) : String.utf8EncodeChar (join [a.toNat]) = [a] := by
  have hjoin : (join [a.toNat]).val.toNat = a.toNat :=
    toNat_join (by simp) (by unfold Nat.isValidChar; omega)
  simp only [String.utf8EncodeChar, hjoin]
  rw [if_pos (by omega), octet_eq rfl]

theorem encodeChar_join_two (ha : 0xC2 ≤ a.toNat ∧ a.toNat < 0xE0) (hb : mayFollow a b = true) :
    String.utf8EncodeChar (join [a.toNat - 0xC0, tail b]) = [a, b] := by
  rw [mayFollow_iff] at hb
  obtain ⟨x, hx⟩ : ∃ x, a.toNat = x + 0xC0 := Nat.exists_eq_add_of_le' (by omega)
  obtain ⟨y, hy⟩ : ∃ y, b.toNat = y + 0x80 := Nat.exists_eq_add_of_le' (by omega)
  have hjoin : (join [x, y]).val.toNat = x * 64 + y :=
    toNat_join (by simp) (by unfold Nat.isValidChar; omega)
  simp only [payload_eq hx, tail_eq hy, String.utf8EncodeChar, hjoin]
  rw [if_neg (by omega), if_pos (by omega), octet_eq (a := a) (by omega), octet_eq (a := b) (by omega)]

theorem encodeChar_join_three (ha : 0xE0 ≤ a.toNat ∧ a.toNat < 0xF0) (hb : mayFollow a b = true)
    (hc : isTail c = true) : String.utf8EncodeChar (join [a.toNat - 0xE0, tail b, tail c]) = [a, b, c] := by
  rw [mayFollow_iff] at hb
  rw [isTail_iff] at hc
  obtain ⟨x, hx⟩ := Nat.exists_eq_add_of_le' ha.1
  obtain ⟨y, hy⟩ : ∃ y, b.toNat = y + 0x80 := Nat.exists_eq_add_of_le' (by omega)
  obtain ⟨z, hz⟩ := Nat.exists_eq_add_of_le' hc.1
  have hjoin : (join [x, y, z]).val.toNat = (x * 64 + y) * 64 + z :=
    toNat_join (by simp) (by unfold Nat.isValidChar; omega)
  simp only [payload_eq hx, tail_eq hy, tail_eq hz, String.utf8EncodeChar, hjoin]
  rw [if_neg (by omega), if_neg (by omega), if_pos (by omega), octet_eq (a := a) (by omega),
    octet_eq (a := b) (by omega), octet_eq (a := c) (by omega)]

theorem encodeChar_join_four (ha : 0xF0 ≤ a.toNat ∧ a.toNat < 0xF5) (hb : mayFollow a b = true)
    (hc : isTail c = true) (hd : isTail d = true) :
    String.utf8EncodeChar (join [a.toNat - 0xF0, tail b, tail c, tail d]) = [a, b, c, d] := by
  rw [mayFollow_iff] at hb
  rw [isTail_iff] at hc hd
  obtain ⟨x, hx⟩ := Nat.exists_eq_add_of_le' ha.1
  obtain ⟨y, hy⟩ : ∃ y, b.toNat = y + 0x80 := Nat.exists_eq_add_of_le' (by omega)
  obtain ⟨z, hz⟩ := Nat.exists_eq_add_of_le' hc.1
  obtain ⟨w, hw⟩ := Nat.exists_eq_add_of_le' hd.1
  have hjoin : (join [x, y, z, w]).val.toNat = ((x * 64 + y) * 64 + z) * 64 + w :=
    toNat_join (by simp) (by unfold Nat.isValidChar; omega)
  simp only [payload_eq hx, tail_eq hy, tail_eq hz, tail_eq hw, String.utf8EncodeChar, hjoin]
  rw [if_neg (by omega), if_neg (by omega), if_neg (by omega), octet_eq (a := a) (by omega),
    octet_eq (a := b) (by omega), octet_eq (a := c) (by omega), octet_eq (a := d) (by omega)]

/-- One more character in front of a text and of its octets. -/
theorem exists_encode_cons {front s : List Char} {b : Octets}
    (h : ∃ t, s = (e :: front).reverse ++ t ∧ encode t = b) :
    ∃ t, s = front.reverse ++ t ∧ encode t = String.utf8EncodeChar e ++ b := by
  obtain ⟨t, rfl, rfl⟩ := h
  exact ⟨e :: t, by rw [List.reverse_cons, List.append_assoc, List.singleton_append], encode_cons e t⟩

/-- **Octets that are read as a text are the octets of this text.** -/
theorem encode_of_decodeOnto {b : Octets} {s : List Char} (h : decodeOnto index done b = .ok s) :
    ∃ t, s = done.reverse ++ t ∧ encode t = b := by
  fun_induction decodeOnto index done b with
  | case1 index done =>
    cases h
    exact ⟨[], (List.append_nil _).symm, rfl⟩
  | case2 index done a rest hone ih =>
    have hchar := encodeChar_join_one (widthOf_eq_one_iff.mp hone)
    simpa only [hchar, List.cons_append, List.nil_append] using exists_encode_cons (ih h)
  | case6 index done a b rest hb _ _ htwo ih =>
    have hchar := encodeChar_join_two (widthOf_eq_two_iff.mp htwo) (by simpa using hb)
    simpa only [hchar, List.cons_append, List.nil_append] using exists_encode_cons (ih h)
  | case9 index done a b hb c rest hc _ _ _ hthree ih =>
    have hchar := encodeChar_join_three (widthOf_eq_three_iff.mp hthree) (by simpa using hb)
      (by simpa using hc)
    simpa only [hchar, List.cons_append, List.nil_append] using exists_encode_cons (ih h)
  | case12 index done a b hb c hc d rest hd hone hzero htwo hthree ih =>
    have hfour : widthOf a = 4 := by
      have hmost := widthOf_le a
      rw [imp_false] at hone hzero
      omega
    have hchar := encodeChar_join_four (widthOf_eq_four_iff.mp hfour) (by simpa using hb)
      (by simpa using hc) (by simpa using hd)
    simpa only [hchar, List.cons_append, List.nil_append] using exists_encode_cons (ih h)
  | case3 | case4 | case5 | case7 | case8 | case10 | case11 => cases h

/-- **A text that octets are read as is written as these octets.** -/
theorem encode_of_decode {b : Octets} {s : List Char} (h : decode b = .ok s) : encode s = b := by
  obtain ⟨t, rfl, ht⟩ := encode_of_decodeOnto h
  exact ht

/-! ## Forms that no text has -/

/-- Octets in the form of a character, but for a number that a shorter form has, that is a surrogate's, or that
is above those of all characters. -/
inductive Misspelled : Octets → Prop where
  | two (n : Nat) (h : n < 0x80) : Misspelled [UInt8.ofNat (0xC0 + n / 64), UInt8.ofNat (0x80 + n % 64)]
  | three (n : Nat) (h : n < 0x800 ∨ (0xD800 ≤ n ∧ n ≤ 0xDFFF)) :
    Misspelled [UInt8.ofNat (0xE0 + n / 4096), UInt8.ofNat (0x80 + n / 64 % 64), UInt8.ofNat (0x80 + n % 64)]
  | four (n : Nat) (h : n < 0x10000 ∨ (0x10FFFF < n ∧ n < 0x200000)) :
    Misspelled [UInt8.ofNat (0xF0 + n / 262144), UInt8.ofNat (0x80 + n / 4096 % 64),
      UInt8.ofNat (0x80 + n / 64 % 64), UInt8.ofNat (0x80 + n % 64)]

/-- The first two octets of such a form begin no character. -/
theorem Misspelled.front {m : Octets} (h : Misspelled m) : ∃ a b more, m = a :: b :: more ∧
    0xC0 ≤ a.toNat ∧ (widthOf a = 0 ∨ mayFollow a b = false) := by
  cases h with
  | two n h =>
    have ha := toNat_octet (n := 0xC0 + n / 64) (by omega)
    refine ⟨_, _, _, rfl, by omega, .inl ?_⟩
    rw [widthOf_eq, ha, if_neg (by omega), if_pos (by omega)]
  | three n h =>
    have ha := toNat_octet (n := 0xE0 + n / 4096) (by omega)
    have hb := toNat_octet (n := 0x80 + n / 64 % 64) (by omega)
    refine ⟨_, _, _, rfl, by omega, .inr ?_⟩
    rw [Bool.eq_false_iff, ne_eq, mayFollow_iff]
    omega
  | four n h =>
    have ha := toNat_octet (n := 0xF0 + n / 262144) (by omega)
    have hb := toNat_octet (n := 0x80 + n / 4096 % 64) (by omega)
    refine ⟨_, _, _, rfl, by omega, ?_⟩
    rw [Bool.eq_false_iff, ne_eq, mayFollow_iff, widthOf_eq]
    split_ifs <;> omega

theorem decodeOnto_refused (ha : 0xC0 ≤ a.toNat) (h : widthOf a = 0 ∨ mayFollow a b = false) :
    decodeOnto index done (a :: b :: rest) = .error (.malformed 1 index) := by
  have hone : widthOf a ≠ 1 := by
    rw [ne_eq, widthOf_eq_one_iff]
    omega
  rw [decodeOnto.eq_def]
  simp only
  split
  · next hwidth => exact absurd hwidth hone
  · rfl
  · next hnil _ _ => cases hnil
  · next hcons _ hzero =>
    cases hcons
    rw [h.resolve_left hzero]
    rfl

/-- Only the first octet of a character is none that continues one. -/
theorem isTail_of_encodeChar {e : Char} {front back : Octets} (h : String.utf8EncodeChar e = front ++ a :: back)
    (hfront : front ≠ []) : isTail a = true := by
  have hvalid : e.toNat < 0xD800 ∨ (0xDFFF < e.toNat ∧ e.toNat < 0x110000) := e.valid
  have htails : ∀ o ∈ (String.utf8EncodeChar e).tail, isTail o = true := by
    simp only [String.utf8EncodeChar]
    split_ifs <;> simp [isTail_iff] <;> omega
  obtain ⟨x, front, rfl⟩ := List.exists_cons_of_ne_nil hfront
  rw [h] at htails
  exact htails a (by simp)

/-- **Octets in front of one that continues no character are a text's own.** -/
theorem exists_split {s : List Char} {front back : Octets} (h : encode s = front ++ a :: back)
    (ha : isTail a = false) : ∃ t, encode t = a :: back := by
  induction s generalizing front with
  | nil => simp [encode] at h
  | cons e s ih =>
    rw [encode_cons] at h
    rcases List.append_eq_append_iff.mp h with ⟨middle, rfl, hmiddle⟩ | ⟨middle, he, hback⟩
    · exact ih hmiddle
    · cases middle with
      | nil =>
        have hs : encode s = [] ++ a :: back := hback.symm
        exact ih hs
      | cons x middle =>
        cases hback
        cases front with
        | nil => exact ⟨e :: s, h⟩
        | cons y front =>
          have htail := isTail_of_encodeChar he (List.cons_ne_nil _ _)
          rw [ha] at htail
          cases htail

/-- **No form of a number that is not a character's is read**, wherever it stands. -/
theorem not_misspelled_infix {raw m : Octets} {s : List Char} (h : decode raw = .ok s) (hm : Misspelled m) :
    ¬ m <:+: raw := by
  rintro ⟨front, back, hraw⟩
  obtain ⟨a, b, more, rfl, ha, hrefused⟩ := hm.front
  have hlead : isTail a = false := by
    rw [Bool.eq_false_iff, ne_eq, isTail_iff]
    omega
  have hs : encode s = front ++ a :: (b :: more ++ back) := by
    rw [encode_of_decode h, ← hraw, List.append_assoc, List.cons_append]
  obtain ⟨t, ht⟩ := exists_split hs hlead
  have hread := decode_encode t
  rw [ht, decode, List.cons_append, decodeOnto_refused ha hrefused] at hread
  cases hread

end BoothLink.Utf8

namespace BoothLink.Read

theorem textOfOctets_encode (s : String) : textOfOctets (Utf8.encode s.toList) = .ok s := by
  rw [textOfOctets, Utf8.decode_encode]
  exact congrArg Except.ok String.ofList_toList

theorem encode_of_textOfOctets {raw : Octets} {s : String} (h : textOfOctets raw = .ok s) :
    Utf8.encode s.toList = raw := by
  rw [textOfOctets] at h
  split at h
  · next t ht =>
    cases h
    rw [String.toList_ofList]
    exact Utf8.encode_of_decode ht
  · cases h

end BoothLink.Read
