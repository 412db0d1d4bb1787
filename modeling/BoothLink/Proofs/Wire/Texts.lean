import BoothLink.Proofs.Wire.Rows

/-!
# Texts have one form

A text stands on the wire behind the number of its octets, in one of two encodings. Octets behind their
number are read as a text exactly if they are what this text is written as; all others are refused for their
encoding, and for nothing else.

* `TextForm`: the two encodings, with the field, the octets and the read of each.
* `TextForm.decode_eq_ok_iff`: octets that are a text's.
* `TextForm.run_read`, `TextForm.write_eq_iff`: the read and the write of a text come down to its octets.
* **`TextForm.read_exact`**: what is read from octets behind their number.
-/

namespace BoothLink

/-- How the octets of a text stand for it. -/
inductive TextForm where
  | utf16 | utf8
  deriving DecidableEq, Repr

namespace TextForm

def field : TextForm → String → Field
  | utf16 => .utf16
  | utf8 => .utf8

def encode : TextForm → String → Octets
  | utf16, s => Utf16.encode s.toList
  | utf8, s => Utf8.encode s.toList

def decode : TextForm → Octets → Except TextFault String
  | utf16 => Read.textOfUnits
  | utf8 => Read.textOfOctets

def read : TextForm → Read String
  | utf16 => Read.utf16
  | utf8 => Read.utf8

variable {form : TextForm} {raw rest : Octets} {s : String}

theorem fits_iff (form : TextForm) (s : String) :
    (form.field s).Fits ↔ (form.encode s).length ≤ frameLimit := by
  cases form <;> rfl

theorem read_eq (form : TextForm) :
    form.read = Read.counted >>= fun raw => Read.checked (form.decode raw) := by
  cases form <;> rfl

theorem write_eq (form : TextForm) (s : String) :
    (form.field s).write = Field.counted (form.encode s) := by
  cases form <;> rfl

/-- **Octets are read as a text exactly if they are the text's.** -/
theorem decode_eq_ok_iff : form.decode raw = .ok s ↔ form.encode s = raw := by
  cases form with
  | utf16 =>
    refine ⟨Read.encode_of_textOfUnits, ?_⟩
    rintro rfl
    exact Read.textOfUnits_encode s
  | utf8 =>
    refine ⟨Read.encode_of_textOfOctets, ?_⟩
    rintro rfl
    exact Read.textOfOctets_encode s

/-- Octets behind their number, and whatever octets behind them. -/
def counted (raw rest : Octets) : Octets := Octets.ofNat 4 raw.length ++ raw ++ rest

/-- **A text is looked at once its octets are there.** -/
theorem run_read (form : TextForm) (hraw : raw.length ≤ frameLimit) (rest : Octets) :
    Read.run form.read (.start (counted raw rest)) =
      Read.run (Read.checked (form.decode raw)) ⟨4 + raw.length, rest⟩ := by
  have hcounted : Read.run Read.counted (.start (counted raw rest)) = (.ok raw, ⟨4 + raw.length, rest⟩) :=
    Read.counted_ok_iff.mpr ⟨hraw, rfl, (Nat.zero_add _).symm⟩
  rw [read_eq, Read.run_bind_ok hcounted]

/-- **A text is written as octets behind their number exactly if they are its own.** -/
theorem write_eq_iff (hraw : raw.length ≤ frameLimit) :
    (form.field s).write = .ok (Octets.ofNat 4 raw.length ++ raw) ↔ form.encode s = raw := by
  rw [write_eq, Field.counted]
  constructor
  · intro h
    split at h
    · cases h
    · have hwritten := Except.ok.inj h
      exact (List.append_inj hwritten (by rw [Octets.length_ofNat, Octets.length_ofNat])).2
  · rintro rfl
    have hlim : ¬ lengthLimit < (form.encode s).length := by
      unfold lengthLimit frameLimit at *
      omega
    exact if_neg hlim

theorem run_read_ok_iff (hraw : raw.length ≤ frameLimit) {c : Cursor} :
    Read.run form.read (.start (counted raw rest)) = (.ok s, c) ↔
      form.encode s = raw ∧ c = ⟨4 + raw.length, rest⟩ := by
  rw [run_read form hraw, ← decode_eq_ok_iff]
  cases form.decode raw with
  | ok t => simp [Read.checked, eq_comm]
  | error fault => simp [Read.checked]

theorem run_read_error_iff (hraw : raw.length ≤ frameLimit) {e : WireError} {c : Cursor} :
    Read.run form.read (.start (counted raw rest)) = (.error e, c) ↔
      (∃ fault, form.decode raw = .error fault ∧ e = .encoding fault) ∧ c = ⟨4 + raw.length, rest⟩ := by
  rw [run_read form hraw]
  cases form.decode raw with
  | ok t => simp [Read.checked]
  | error fault => simp [Read.checked, eq_comm]

/-- Octets that are no text's have something wrong with them. -/
theorem exists_decode_error_iff : (∃ fault, form.decode raw = .error fault) ↔ ∀ s, form.encode s ≠ raw := by
  constructor
  · rintro ⟨fault, hfault⟩ s hs
    rw [decode_eq_ok_iff.mpr hs] at hfault
    cases hfault
  · intro hnone
    cases hdecode : form.decode raw with
    | ok s => exact absurd (decode_eq_ok_iff.mp hdecode) (hnone s)
    | error fault => exact ⟨fault, rfl⟩

/-- The octets of units are refused exactly if a half of a pair stands alone among the units. -/
theorem textOfUnits_eq_lone_iff {us : List UInt16} :
    Read.textOfUnits (us.flatMap Utf16.unitOctets) = .error .loneSurrogate ↔ Utf16.Unpaired us := by
  have heven : ¬ (us.flatMap Utf16.unitOctets).length % 2 ≠ 0 := by
    rw [Utf16.length_flatMap]
    omega
  rw [Read.textOfUnits, if_neg heven, Utf16.decode?, Utf16.unitsOnto_flatMap, List.reverse_nil, List.nil_append,
    ← Utf16.decodeOnto_eq_none_iff]
  cases Utf16.decodeOnto [] us with
  | none => simp
  | some s => simp

/-- **Octets behind their number have one text, or none.** From octets of no more than the limit, behind their
number and in front of any others, a text is read exactly if it is written as these octets, and then all of
them are passed. If no text is, they are refused for their encoding, and for nothing else. In sixteen-bit units
an odd number of octets is refused as such, whatever the octets are, and an even number is refused exactly
if a half of a pair stands alone; in octets every form of a number that is not a character's is refused. Two
strings of octets are never read as the same text. -/
theorem read_exact (form : TextForm) {raw : Octets} (hraw : raw.length ≤ frameLimit) (rest : Octets) :
    (∀ s c, Read.run form.read (.start (counted raw rest)) = (.ok s, c) ↔
      (form.field s).write = .ok (Octets.ofNat 4 raw.length ++ raw) ∧ c = ⟨4 + raw.length, rest⟩) ∧
    ((∃ fault c, Read.run form.read (.start (counted raw rest)) = (.error (.encoding fault), c)) ↔
      ∀ s, (form.field s).write ≠ .ok (Octets.ofNat 4 raw.length ++ raw)) ∧
    (∀ e c, Read.run form.read (.start (counted raw rest)) = (.error e, c) →
      (∃ fault, e = .encoding fault) ∧ c = ⟨4 + raw.length, rest⟩) ∧
    (form = utf16 →
      (raw.length % 2 = 1 → Read.run form.read (.start (counted raw rest)) =
        (.error (.encoding (.oddLength raw.length)), ⟨4 + raw.length, rest⟩)) ∧
      (raw.length % 2 = 0 → ∃ us : List UInt16, raw = us.flatMap Utf16.unitOctets ∧
        (Read.run form.read (.start (counted raw rest)) =
          (.error (.encoding .loneSurrogate), ⟨4 + raw.length, rest⟩) ↔ Utf16.Unpaired us))) ∧
    (form = utf8 → ∀ m, Utf8.Misspelled m → m <:+: raw →
      ∃ fault, Read.run form.read (.start (counted raw rest)) =
        (.error (.encoding fault), ⟨4 + raw.length, rest⟩)) ∧
    (∀ raw' rest' s c c', raw'.length ≤ frameLimit →
      Read.run form.read (.start (counted raw rest)) = (.ok s, c) →
      Read.run form.read (.start (counted raw' rest')) = (.ok s, c') → raw' = raw) := by
  refine ⟨?_, ?_, ?_, ?_, ?_, ?_⟩
  · intro s c
    rw [run_read_ok_iff hraw, write_eq_iff hraw]
  · simp only [ne_eq, write_eq_iff hraw, run_read_error_iff hraw]
    rw [← exists_decode_error_iff]
    constructor
    · rintro ⟨fault, c, ⟨found, hfound, -⟩, -⟩
      exact ⟨found, hfound⟩
    · rintro ⟨fault, hfault⟩
      exact ⟨fault, _, ⟨fault, hfault, rfl⟩, rfl⟩
  · intro e c h
    obtain ⟨⟨fault, -, rfl⟩, rfl⟩ := (run_read_error_iff hraw).mp h
    exact ⟨⟨fault, rfl⟩, rfl⟩
  · rintro rfl
    refine ⟨fun hodd => ?_, fun heven => ?_⟩
    · rw [run_read_error_iff hraw]
      exact ⟨⟨_, if_pos (by omega), rfl⟩, rfl⟩
    · obtain ⟨us, -, rfl⟩ := Utf16.unitsOnto_even [] heven
      refine ⟨us, rfl, ?_⟩
      rw [run_read_error_iff hraw, ← textOfUnits_eq_lone_iff]
      simp [decode]
  · rintro rfl m hm hin
    have hnone : ∀ s, utf8.encode s ≠ raw := by
      rintro s rfl
      exact Utf8.not_misspelled_infix (Utf8.decode_encode s.toList) hm hin
    obtain ⟨fault, hfault⟩ := exists_decode_error_iff.mpr hnone
    exact ⟨fault, (run_read_error_iff hraw).mpr ⟨⟨fault, hfault, rfl⟩, rfl⟩⟩
  · intro raw' rest' s c c' hraw' h h'
    rw [← ((run_read_ok_iff hraw).mp h).1, ← ((run_read_ok_iff hraw').mp h').1]

/-- A letter is read in front of other octets, a longer form of a slash is refused. -/
theorem read_exact_letter_and_slash :
    (([0x00, 0x4A] : Octets).length ≤ frameLimit ∧
      Read.run utf16.read (.start (counted [0x00, 0x4A] [0xFF])) = (.ok "J", ⟨6, [0xFF]⟩)) ∧
    ([0xC0, 0xAF] : Octets).length ≤ frameLimit ∧ Utf8.Misspelled [0xC0, 0xAF] ∧
      ∃ fault, Read.run utf8.read (.start (counted [0xC0, 0xAF] [])) = (.error (.encoding fault), ⟨6, []⟩) := by
  have hletter : ([0x00, 0x4A] : Octets).length ≤ frameLimit := by decide
  have hslash : ([0xC0, 0xAF] : Octets).length ≤ frameLimit := by decide
  have hwritten : (utf16.field "J").write = .ok (Octets.ofNat 4 2 ++ [0x00, 0x4A]) := by decide +kernel
  have hlong : Utf8.Misspelled [0xC0, 0xAF] := .two 0x2F (by decide)
  have hread := (read_exact utf16 hletter [0xFF]).1 "J" ⟨6, [0xFF]⟩
  have hrefused := (read_exact utf8 hslash []).2.2.2.2.1 rfl _ hlong (List.infix_refl _)
  exact ⟨⟨hletter, hread.mpr ⟨hwritten, rfl⟩⟩, hslash, hlong, hrefused⟩

end TextForm

end BoothLink
