import Mathlib
import BoothLink.Text.Utf8
import BoothLink.Token

/-!
# Tokens and their texts

A text names a token just if 32 hexadecimal digits are left of it without its hyphens, and in lower case these
are the text of the token. So every token is named by its text, and tokens stand in the order of their texts.

The digits may also be taken from their places, two by two and counted in octets, and each two read as a
number, which may have a plus sign. A place can be behind the end or inside a character, and then there is
nothing to take; but behind a look at the count of octets and at the signs, all digits are there.

* `Octets.IsHexDigit`, `Octets.hexValue?_eq_some_iff`: digits of either case and their values.
* `Octets.ofHex?_eq_some_iff`: the octets that digits spell.
* `Octets.flatMap_pair_lt_iff`: octets stand in the order of their digits.
* `Text.part?`, `Text.part?_eq`: a part of a text between two places.
* `Token.undashed`, `Token.parse_eq_ok_iff`: the texts that name a token.
* `Token.parseByPlaces`, `Token.parseByPlaces_eq`: digits taken from their places.
* **`Token.parse_iff_text`**: tokens and their texts.
-/

namespace BoothLink

namespace Octets

/-! ## Digits -/

/-- A hexadecimal digit of either case. -/
def IsHexDigit (c : Char) : Prop := '0' ≤ c ∧ c ≤ '9' ∨ 'a' ≤ c ∧ c ≤ 'f' ∨ 'A' ≤ c ∧ c ≤ 'F'

instance : DecidablePred IsHexDigit := fun c => by unfold IsHexDigit; infer_instance

variable {c d : Char} {v : ℕ} {cs : List Char} {b done : Octets}

theorem hexDigit_lt_iff : ∀ m < 16, ∀ n < 16, hexDigit m < hexDigit n ↔ m < n := by decide

theorem hexDigit_inj : ∀ m < 16, ∀ n < 16, hexDigit m = hexDigit n ↔ m = n := by decide

theorem isHexDigit_iff : IsHexDigit c ↔ (hexValue? c).isSome := by
  simp only [IsHexDigit, hexValue?, Char.le_def, UInt32.le_iff_toNat_le]
  show 48 ≤ c.toNat ∧ c.toNat ≤ 57 ∨ 97 ≤ c.toNat ∧ c.toNat ≤ 102 ∨ 65 ≤ c.toNat ∧ c.toNat ≤ 70 ↔ _
  split_ifs <;> simp <;> omega

theorem hexValue?_bounds (h : hexValue? c = some v) : c.toNat < 128 ∧ v < 16 := by
  simp only [hexValue?] at h
  split_ifs at h <;> cases h <;> omega

/-- **The value of a digit is told by its lower case.** -/
theorem hexValue?_eq_some_iff : hexValue? c = some v ↔ v < 16 ∧ c.toLower = hexDigit v := by
  have hbelow : ∀ v < 16, ∀ n < 128,
      (hexValue? (Char.ofNat n) = some v ↔ (Char.ofNat n).toLower = hexDigit v) := by decide +kernel
  have hsmall : ∀ v < 16, (hexDigit v).toNat < 128 := by decide
  by_cases hc : c.toNat < 128
  · constructor
    · intro h
      have hv := (hexValue?_bounds h).2
      exact ⟨hv, by simpa [h] using hbelow v hv c.toNat hc⟩
    · rintro ⟨hv, h⟩
      simpa [h] using hbelow v hv c.toNat hc
  · -- There is no digit so far up, and nothing with a lower case.
    refine iff_of_false (fun h => hc (hexValue?_bounds h).1) ?_
    rintro ⟨hv, h⟩
    have hsame : c.toLower = c := by
      refine dif_neg fun hupper => hc ?_
      exact (UInt32.le_iff_toNat_le.mp hupper.2).trans_lt (by decide)
    rw [hsame] at h
    exact hc (h ▸ hsmall v hv)

/-! ## Digits and octets -/

theorem hexPair_ofNat {x y : ℕ} (hx : x < 16) (hy : y < 16) :
    hexPair (UInt8.ofNat (x * 16 + y)) = [hexDigit x, hexDigit y] := by
  have ho : (UInt8.ofNat (x * 16 + y)).toNat = x * 16 + y := by
    rw [UInt8.toNat_ofNat']
    omega
  rw [hexPair, ho, show (x * 16 + y) / 16 = x by omega, show (x * 16 + y) % 16 = y by omega]

theorem halves_lt (o : UInt8) : o.toNat / 16 < 16 ∧ o.toNat % 16 < 16 := by
  have := o.toNat_lt
  omega

theorem ofHexOnto_eq_some_iff : ofHexOnto done cs = some b ↔
    ∃ b', b = done.reverse ++ b' ∧ cs.map Char.toLower = b'.flatMap hexPair := by
  fun_induction ofHexOnto done cs with
  | case1 done =>
    constructor
    · rintro ⟨⟩
      exact ⟨[], by simp⟩
    · rintro ⟨_ | ⟨o, b'⟩, rfl, h⟩
      · simp
      · simp [hexPair] at h
  | case2 done c =>
    refine iff_of_false nofun ?_
    rintro ⟨_ | ⟨o, b'⟩, rfl, h⟩ <;> simp [hexPair] at h
  | case3 done c d rest x y hy hx ih =>
    obtain ⟨hxlt, hx⟩ := hexValue?_eq_some_iff.mp hx
    obtain ⟨hylt, hy⟩ := hexValue?_eq_some_iff.mp hy
    rw [ih]
    constructor
    · rintro ⟨b', rfl, h⟩
      refine ⟨UInt8.ofNat (x * 16 + y) :: b', by simp, ?_⟩
      rw [List.flatMap_cons, hexPair_ofNat hxlt hylt, List.map_cons, List.map_cons, hx, hy, h]
      rfl
    · rintro ⟨_ | ⟨o, b'⟩, rfl, h⟩
      · simp at h
      · simp only [List.map_cons, hx, hy, List.flatMap_cons, hexPair, List.cons_append, List.nil_append,
          List.cons.injEq] at h
        obtain ⟨hhigh, hlow, hrest⟩ := h
        rw [hexDigit_inj x hxlt _ (halves_lt o).1] at hhigh
        rw [hexDigit_inj y hylt _ (halves_lt o).2] at hlow
        have ho : x * 16 + y = o.toNat := by omega
        exact ⟨b', by simp [ho], hrest⟩
  | case4 done c d rest hnot =>
    refine iff_of_false nofun ?_
    rintro ⟨_ | ⟨o, b'⟩, rfl, h⟩
    · simp at h
    · simp only [List.map_cons, List.flatMap_cons, hexPair, List.cons_append, List.nil_append,
        List.cons.injEq] at h
      exact hnot _ _ (hexValue?_eq_some_iff.mpr ⟨(halves_lt o).1, h.1⟩)
        (hexValue?_eq_some_iff.mpr ⟨(halves_lt o).2, h.2.1⟩)

/-- **Digits spell the octets that have them in lower case.** -/
theorem ofHex?_eq_some_iff : ofHex? cs = some b ↔ cs.map Char.toLower = b.flatMap hexPair := by
  simp [ofHex?, ofHexOnto_eq_some_iff]

theorem length_flatMap_hexPair (b : Octets) : (b.flatMap hexPair).length = 2 * b.length := by
  induction b with
  | nil => rfl
  | cons o b ih =>
    simp only [List.flatMap_cons, List.length_append, ih, hexPair, List.length_cons, List.length_nil]
    omega

/-- Digits of even number spell something. -/
theorem exists_ofHex? {n : ℕ} (hlen : cs.length = 2 * n) (hall : ∀ c ∈ cs, IsHexDigit c) :
    ∃ b : Octets, b.length = n ∧ cs.map Char.toLower = b.flatMap hexPair := by
  induction n generalizing cs with
  | zero => exact ⟨[], rfl, by simp [List.length_eq_zero_iff.mp hlen]⟩
  | succ n ih =>
    obtain ⟨c, d, rest, rfl⟩ : ∃ c d rest, cs = c :: d :: rest := by
      match cs, hlen with
      | c :: d :: rest, _ => exact ⟨c, d, rest, rfl⟩
    simp only [List.forall_mem_cons, isHexDigit_iff, Option.isSome_iff_exists] at hall
    obtain ⟨⟨x, hx⟩, ⟨y, hy⟩, hrest⟩ := hall
    obtain ⟨hxlt, hx⟩ := hexValue?_eq_some_iff.mp hx
    obtain ⟨hylt, hy⟩ := hexValue?_eq_some_iff.mp hy
    have hrestlen : rest.length = 2 * n := by
      simp only [List.length_cons] at hlen
      omega
    obtain ⟨b, hb, h⟩ := ih hrestlen
      fun c hc => isHexDigit_iff.mpr (Option.isSome_iff_exists.mpr (hrest c hc))
    refine ⟨UInt8.ofNat (x * 16 + y) :: b, by simp [hb], ?_⟩
    rw [List.flatMap_cons, hexPair_ofNat hxlt hylt, List.map_cons, List.map_cons, hx, hy, h]
    rfl

theorem isHexDigit_of_map_toLower (h : cs.map Char.toLower = b.flatMap hexPair) : ∀ c ∈ cs, IsHexDigit c := by
  intro c hc
  have hmem : c.toLower ∈ b.flatMap hexPair := h ▸ List.mem_map_of_mem hc
  obtain ⟨o, -, ho⟩ := List.mem_flatMap.mp hmem
  have hvalue : ∃ v < 16, c.toLower = hexDigit v := by
    simp only [hexPair, List.mem_cons, List.not_mem_nil, or_false] at ho
    exact ho.elim (fun ho => ⟨_, (halves_lt o).1, ho⟩) fun ho => ⟨_, (halves_lt o).2, ho⟩
  obtain ⟨v, hv, hc⟩ := hvalue
  rw [isHexDigit_iff, hexValue?_eq_some_iff.mpr ⟨hv, hc⟩]
  rfl

/-! ## Order -/

/-- **Octets stand in the order of their digits**, whatever the sixteen digits are, as long as these stand in
the order of their values. -/
theorem flatMap_pair_lt_iff {β : Type} [LT β] {g : ℕ → β} (hlt : ∀ m < 16, ∀ n < 16, g m < g n ↔ m < n)
    (hinj : ∀ m < 16, ∀ n < 16, g m = g n ↔ m = n) {a b : Octets} :
    (a.flatMap fun o => [g (o.toNat / 16), g (o.toNat % 16)]) <
      (b.flatMap fun o => [g (o.toNat / 16), g (o.toNat % 16)]) ↔ a < b := by
  induction a generalizing b with
  | nil => cases b <;> simp
  | cons o a ih =>
    cases b with
    | nil => simp
    | cons p b =>
      obtain ⟨hohigh, holow⟩ := halves_lt o
      obtain ⟨hphigh, hplow⟩ := halves_lt p
      simp only [List.flatMap_cons, List.cons_append, List.nil_append, List.cons_lt_cons_iff, ih,
        hlt _ hohigh _ hphigh, hlt _ holow _ hplow, hinj _ hohigh _ hphigh, hinj _ holow _ hplow,
        UInt8.lt_iff_toNat_lt, ← UInt8.toNat_inj]
      by_cases hrest : a < b <;> simp only [hrest, and_true, and_false, or_false] <;> omega

end Octets

/-! ## Parts of a text -/

namespace Text

/-- The part of a text between two places that are counted in octets; nothing if one of them is behind the end
or inside a character, or if they stand the other way round. -/
def part? (s : String) (i j : ℕ) : Option String :=
  match s.pos? ⟨i⟩, s.pos? ⟨j⟩ with
  | some p, some q => if p ≤ q then some (s.extract p q) else none
  | _, _ => none

variable {s a b c : String}

theorem exists_pos? (h : s = a ++ b) :
    ∃ p, s.pos? ⟨a.utf8ByteSize⟩ = some p ∧ p.offset.byteIdx = a.utf8ByteSize := by
  have hvalid : String.Pos.Raw.IsValid s ⟨a.utf8ByteSize⟩ :=
    String.Pos.Raw.isValid_iff_exists_append.mpr ⟨a, b, h, rfl⟩
  refine ⟨s.pos _ hvalid, ?_, by rw [String.offset_pos]⟩
  rw [String.pos?, String.Slice.pos?, dif_pos (String.Pos.Raw.isValidForSlice_eq_true_iff.mpr hvalid.toSlice)]
  rfl

/-- **A part of a text is there** if its ends are. -/
theorem part?_eq (h : s = a ++ (b ++ c)) :
    part? s a.utf8ByteSize (a.utf8ByteSize + b.utf8ByteSize) = some b := by
  obtain ⟨p, hp, hpat⟩ := exists_pos? h
  obtain ⟨q, hq, hqat⟩ := exists_pos? (h.trans String.append_assoc.symm)
  rw [String.utf8ByteSize_append] at hq hqat
  have hle : p ≤ q := by
    rw [String.Pos.le_iff, String.Pos.Raw.le_iff, hpat, hqat]
    exact Nat.le_add_right _ _
  have hextract : s.extract p q = b := by
    have hfront : a.toByteArray.extract a.utf8ByteSize (a.utf8ByteSize + b.utf8ByteSize) = .empty := by
      rw [ByteArray.extract_eq_empty_iff, String.size_toByteArray]
      omega
    have hback : (b.toByteArray ++ c.toByteArray).extract 0 b.utf8ByteSize = b.toByteArray := by
      rw [ByteArray.extract_append, ← String.size_toByteArray, ByteArray.extract_zero_size]
      simp
    subst h
    rw [← String.toByteArray_inj, String.toByteArray_extract, hpat, hqat, String.toByteArray_append,
      ByteArray.extract_append, hfront, String.toByteArray_append, String.size_toByteArray, Nat.sub_self,
      Nat.add_sub_cancel_left, hback, ByteArray.empty_append]
  simp only [part?, hp, hq, if_pos hle, hextract]

end Text

/-! ## Tokens -/

namespace Token

open Octets

variable {s : String} {t : Token} {cs : List Char}

/-- What is left of a text without its hyphens. -/
def undashed (s : String) : List Char := s.toList.filter (· ≠ '-')

theorem toList_text (t : Token) : t.text.toList = t.octets.flatMap hexPair := String.toList_ofList

/-- **A text names a token just if its digits are, in lower case, the text of the token.** -/
theorem parse_eq_ok_iff : parse s = .ok t ↔ (undashed s).map Char.toLower = t.text.toList := by
  have hparse : parse s = .ok t ↔ (ofHex? (undashed s)).bind ofOctets? = some t := by
    unfold parse undashed
    cases (ofHex? (s.toList.filter (· ≠ '-'))).bind ofOctets? <;> simp
  rw [hparse, toList_text, ← ofHex?_eq_some_iff, Option.bind_eq_some_iff]
  constructor
  · rintro ⟨b, hb, ht⟩
    unfold ofOctets? at ht
    split_ifs at ht
    cases ht
    exact hb
  · intro h
    exact ⟨t.octets, h, dif_pos t.length_eq⟩

theorem eq_of_parse_error {e : ParseError} (h : parse s = .error e) : e = ⟨s⟩ := by
  unfold parse at h
  split at h <;> cases h
  rfl

/-- What is refused is told as it was. -/
theorem parse_refused (h : ∀ t, parse s ≠ .ok t) : parse s = .error ⟨s⟩ := by
  cases hparse : parse s with
  | ok t => exact absurd hparse (h t)
  | error e => rw [eq_of_parse_error hparse]

/-- **The texts that name a token.** -/
theorem exists_parse_iff :
    (∃ t, parse s = .ok t) ↔ (undashed s).length = 32 ∧ ∀ c ∈ undashed s, IsHexDigit c := by
  constructor
  · rintro ⟨t, ht⟩
    rw [parse_eq_ok_iff, toList_text] at ht
    have hlen := congrArg List.length ht
    rw [List.length_map, length_flatMap_hexPair, t.length_eq] at hlen
    exact ⟨hlen, isHexDigit_of_map_toLower ht⟩
  · rintro ⟨hlen, hall⟩
    obtain ⟨b, hb, h⟩ := exists_ofHex? (n := 16) hlen hall
    exact ⟨⟨b, hb⟩, parse_eq_ok_iff.mpr (h.trans (toList_text ⟨b, hb⟩).symm)⟩

/-- The text of a token has no hyphen and nothing in upper case. -/
theorem undashed_text (t : Token) : undashed t.text = t.text.toList ∧
    t.text.toList.map Char.toLower = t.text.toList := by
  have hdigit : ∀ v < 16, hexDigit v ≠ '-' ∧ (hexDigit v).toLower = hexDigit v := by decide
  have hall : ∀ c ∈ t.text.toList, c ≠ '-' ∧ c.toLower = c := by
    intro c hc
    rw [toList_text] at hc
    obtain ⟨o, -, ho⟩ := List.mem_flatMap.mp hc
    simp only [hexPair, List.mem_cons, List.not_mem_nil, or_false] at ho
    rcases ho with rfl | rfl
    · exact hdigit _ (halves_lt o).1
    · exact hdigit _ (halves_lt o).2
  constructor
  · rw [undashed, List.filter_eq_self]
    intro c hc
    simpa using (hall c hc).1
  · exact (List.map_congr_left fun c hc => (hall c hc).2).trans (List.map_id' _)

/-- **Every token is named by its text.** -/
theorem parse_text (t : Token) : parse t.text = .ok t := by
  rw [parse_eq_ok_iff, (undashed_text t).1, (undashed_text t).2]

/-! ## Digits from their places -/

/-- The number below 256 that a text spells in hexadecimal; a plus sign may stand in front. -/
def octetOf? (s : String) : Option UInt8 :=
  let digits := match s.toList with
    | '+' :: c :: cs => c :: cs
    | cs => cs
  if digits = [] then none
  else
    match digits.foldlM (fun n c => (hexValue? c).map (n * 16 + ·)) 0 with
    | some n => if n < 256 then some (UInt8.ofNat n) else none
    | none => none

/-- The octets that so many pairs of digits spell, the first of them at the place of a pair. There is no
answer at all if a pair is not there to be taken. -/
def octetsFrom (digits : String) : (pair count : ℕ) → Option (Option Octets)
  | _, 0 => some (some [])
  | pair, count + 1 =>
    match Text.part? digits (pair * 2) (pair * 2 + 2) with
    | none => none
    | some s =>
      match octetOf? s with
      | none => some none
      | some o => (octetsFrom digits (pair + 1) count).map fun found => found.map (o :: ·)

/-- The token that a text names, with the digits taken from their places after a look at how many octets they
are and at what they are. There is no answer at all if a pair is not there to be taken. -/
def parseByPlaces (s : String) : Option (Except ParseError Token) :=
  let digits := String.ofList (undashed s)
  if digits.utf8ByteSize ≠ width * 2 ∨ ¬ ∀ c ∈ undashed s, IsHexDigit c then some (.error ⟨s⟩)
  else
    (octetsFrom digits 0 width).map fun found =>
      match found.bind ofOctets? with
      | some t => .ok t
      | none => .error ⟨s⟩

theorem utf8ByteSize_digits (h : ∀ c ∈ cs, IsHexDigit c) : (String.ofList cs).utf8ByteSize = cs.length := by
  induction cs with
  | nil => rfl
  | cons c cs ih =>
    obtain ⟨hc, hcs⟩ := List.forall_mem_cons.mp h
    have hone : c.utf8Size = 1 := by
      obtain ⟨v, hv⟩ := Option.isSome_iff_exists.mp (isHexDigit_iff.mp hc)
      rw [Char.utf8Size_eq_one_iff, UInt32.le_iff_toNat_le]
      exact Nat.lt_succ_iff.mp (hexValue?_bounds hv).1
    have hrest := ih hcs
    rw [String.utf8ByteSize_ofList] at hrest ⊢
    rw [String.utf8Len_cons, hrest, hone, List.length_cons]

/-- Two digits spell an octet. -/
theorem octetOf?_pair {c d : Char} {o : UInt8} (h : [c.toLower, d.toLower] = hexPair o) :
    octetOf? (String.ofList [c, d]) = some o := by
  obtain ⟨hhigh, hlow⟩ : c.toLower = hexDigit (o.toNat / 16) ∧ d.toLower = hexDigit (o.toNat % 16) := by
    simpa [hexPair] using h
  have hc := hexValue?_eq_some_iff.mpr ⟨(halves_lt o).1, hhigh⟩
  have hd := hexValue?_eq_some_iff.mpr ⟨(halves_lt o).2, hlow⟩
  have hvalue : UInt8.ofNat (o.toNat / 16 * 16 + o.toNat % 16) = o := by
    rw [Nat.div_add_mod', UInt8.ofNat_toNat]
  have hlt : o.toNat / 16 * 16 + o.toNat % 16 < 256 := by
    have := o.toNat_lt
    omega
  have hplus : c ≠ '+' := by
    rintro rfl
    cases hc
  simp [octetOf?, hplus, hc, hd, hvalue, hlt]

/-- **All pairs are there to be taken**, if all are digits. -/
theorem octetsFrom_eq (front : List Char) {rest : List Char} {b : Octets} {pair : ℕ} (hfront : front.length = pair * 2)
    (hall : ∀ c ∈ front ++ rest, IsHexDigit c) (h : rest.map Char.toLower = b.flatMap hexPair) :
    octetsFrom (String.ofList (front ++ rest)) pair b.length = some (some b) := by
  induction b generalizing front rest pair with
  | nil => rfl
  | cons o b ih =>
    obtain ⟨c, d, rest, rfl⟩ : ∃ c d more, rest = c :: d :: more := by
      rcases rest with _ | ⟨c, _ | ⟨d, more⟩⟩
      · simp [hexPair] at h
      · simp [hexPair] at h
      · exact ⟨c, d, more, rfl⟩
    obtain ⟨hpair, hrest⟩ : [c.toLower, d.toLower] = hexPair o ∧
        rest.map Char.toLower = b.flatMap hexPair := by
      simpa [hexPair, and_assoc] using h
    have hsplit : String.ofList (front ++ c :: d :: rest) =
        String.ofList front ++ (String.ofList [c, d] ++ String.ofList rest) := by
      rw [← String.ofList_append, ← String.ofList_append]
      rfl
    have hnext : front ++ c :: d :: rest = (front ++ [c, d]) ++ rest := by simp
    have htake := Text.part?_eq hsplit
    rw [utf8ByteSize_digits fun x hx => hall x (by simp [hx]),
      utf8ByteSize_digits fun x hx => hall x (by simp at hx ⊢; tauto), hfront] at htake
    have hbehind : (front ++ [c, d]).length = (pair + 1) * 2 := by
      rw [List.length_append, hfront, Nat.add_mul]
      rfl
    have hmore := ih (front ++ [c, d]) hbehind (hnext ▸ hall) hrest
    rw [← hnext] at hmore
    have htwo : [c, d].length = 2 := rfl
    rw [htwo] at htake
    simp only [List.length_cons, octetsFrom, htake, octetOf?_pair hpair, hmore]
    rfl

/-- **By their places the digits spell the same token**, and are all there. -/
theorem parseByPlaces_eq (s : String) : parseByPlaces s = some (parse s) := by
  by_cases hall : ∀ c ∈ undashed s, IsHexDigit c
  · have hsize := utf8ByteSize_digits hall
    by_cases hlen : (undashed s).length = 32
    · obtain ⟨t, ht⟩ := exists_parse_iff.mpr ⟨hlen, hall⟩
      have hdigits := parse_eq_ok_iff.mp ht
      rw [toList_text] at hdigits
      have hfront : ([] : List Char).length = 0 * 2 := rfl
      have hwhole : ∀ c ∈ [] ++ undashed s, IsHexDigit c := hall
      have hoctets := octetsFrom_eq [] hfront hwhole hdigits
      rw [t.length_eq, List.nil_append] at hoctets
      have htest : ¬ ((String.ofList (undashed s)).utf8ByteSize ≠ width * 2 ∨
          ¬ ∀ c ∈ undashed s, IsHexDigit c) := by
        simpa [hsize, hlen, width] using hall
      have hof : ofOctets? t.octets = some t := dif_pos t.length_eq
      rw [parseByPlaces, if_neg htest, width, hoctets, ht]
      simp [hof]
    · rw [parseByPlaces, if_pos (.inl (by rwa [hsize])), parse_refused]
      exact fun t ht => hlen (exists_parse_iff.mp ⟨t, ht⟩).1
  · rw [parseByPlaces, if_pos (.inr hall), parse_refused]
    exact fun t ht => hall (exists_parse_iff.mp ⟨t, ht⟩).2

/-- Without the look at the signs a plus sign would pass, and without it a pair may not be there to be taken. -/
example : octetOf? "+5" = some 5 ∧ octetsFrom "€0" 0 2 = none := by decide +kernel

/-! ## Order -/

theorem compareOctets_eq_lt_iff {a b : Octets} : compareOctets a b = .lt ↔ a < b := by
  fun_induction compareOctets a b with
  | case1 => simp
  | case2 => simp
  | case3 => simp
  | case4 a as b bs h => simp [List.cons_lt_cons_iff, h]
  | case5 a as b bs h h' =>
    simp only [reduceCtorEq, List.cons_lt_cons_iff, false_iff, not_or, not_and]
    exact ⟨h, fun hab => absurd (hab ▸ h') h⟩
  | case6 a as b bs h h' ih =>
    have hab : a = b := by
      rw [UInt8.lt_iff_toNat_lt] at h h'
      exact UInt8.toNat_inj.mp (by omega)
    simp [ih, hab]

theorem lt_iff {a b : Token} : a < b ↔ a.octets < b.octets := compareOctets_eq_lt_iff

/-- **Tokens stand in the order of their texts.** -/
theorem text_lt_iff {a b : Token} : a.text < b.text ↔ a < b := by
  rw [String.lt_iff_toList_lt, toList_text, toList_text, lt_iff]
  exact flatMap_pair_lt_iff hexDigit_lt_iff hexDigit_inj

/-- The same for the octets of their texts. -/
theorem encode_text_lt_iff {a b : Token} :
    Utf8.encode a.text.toList < Utf8.encode b.text.toList ↔ a < b := by
  have hdigit : ∀ v < 16, String.utf8EncodeChar (hexDigit v) = [UInt8.ofNat (hexDigit v).toNat] := by decide
  have hencode : ∀ t : Token, Utf8.encode t.text.toList = t.octets.flatMap fun o =>
      [UInt8.ofNat (hexDigit (o.toNat / 16)).toNat, UInt8.ofNat (hexDigit (o.toNat % 16)).toNat] := by
    intro t
    rw [toList_text, Utf8.encode, List.flatMap_assoc]
    congr 1
    funext o
    simp [hexPair, hdigit _ (halves_lt o).1, hdigit _ (halves_lt o).2]
  rw [hencode, hencode, lt_iff]
  exact flatMap_pair_lt_iff (g := fun v => UInt8.ofNat (hexDigit v).toNat) (by decide) (by decide)

/-- **Tokens and their texts.** A text names a token just if 32 hexadecimal digits of either case are left of it
without its hyphens, and the token is then the one whose text has these digits in lower case. Every other text
is refused, and told as it was. Taken from their places, all digits are there and spell the same. Every token is
named by its text, and tokens stand in the order of their texts, by characters as by octets. -/
theorem parse_iff_text :
    (∀ s, ((∃ t, parse s = .ok t) ↔ (undashed s).length = 32 ∧ ∀ c ∈ undashed s, IsHexDigit c) ∧
      (∀ t, parse s = .ok t ↔ t.text = String.ofList ((undashed s).map Char.toLower)) ∧
      (∀ e, parse s = .error e ↔
        ¬ ((undashed s).length = 32 ∧ ∀ c ∈ undashed s, IsHexDigit c) ∧ e = ⟨s⟩) ∧
      parseByPlaces s = some (parse s)) ∧
    (∀ t : Token, parse t.text = .ok t) ∧
    ∀ a b : Token, (a < b ↔ a.text < b.text) ∧
      (a < b ↔ Utf8.encode a.text.toList < Utf8.encode b.text.toList) := by
  refine ⟨fun s => ⟨exists_parse_iff, fun t => ?_, fun e => ?_, parseByPlaces_eq s⟩, parse_text, fun a b =>
    ⟨text_lt_iff.symm, encode_text_lt_iff.symm⟩⟩
  · rw [parse_eq_ok_iff, ← String.toList_inj, String.toList_ofList, eq_comm]
  · rw [← exists_parse_iff]
    constructor
    · intro h
      exact ⟨fun ⟨t, ht⟩ => by simp [ht] at h, eq_of_parse_error h⟩
    · rintro ⟨hnone, rfl⟩
      exact parse_refused (not_exists.mp hnone)

end Token

end BoothLink
