import BoothLink.Proofs.Wire.RunsOut

/-!
# Fields have one form

A read that gives a value has passed the octets that the value is written as, and no others. So the
octets between two places of a cursor are those of the fields that were read there, and these are short
enough to be read again.

* `Cursor.Passes`: the octets between two places.
* `Cursor.Spells`: a row of fields between two places, with `Spells.append` for sequences.
* `Takes.run_of_passes`: a read that takes octets, between two places with these octets.
* `run_bind_ok_iff`: a sequence gives a value exactly if each of its reads does.
* **`spells_u16`** … **`spells_utf16`**: the typed reads pass the octets of their fields.
-/

namespace BoothLink

namespace Cursor

/-- From one place to another these octets have been passed. -/
structure Passes (c : Cursor) (b : Octets) (c' : Cursor) : Prop where
  ahead_eq : c.ahead = b ++ c'.ahead
  position_eq : c'.position = c.position + b.length

/-- Between two places stand the octets of a row of fields that are short enough to be read. -/
structure Spells (c : Cursor) (fs : List Field) (c' : Cursor) : Prop where
  fits : ∀ f ∈ fs, f.Fits
  written : ∃ b, Field.writeAll fs = .ok b ∧ c.Passes b c'

variable {c c₁ c₂ : Cursor} {b b' : Octets} {fs gs : List Field} {f : Field}

theorem Passes.refl (c : Cursor) : c.Passes [] c := ⟨rfl, rfl⟩

theorem Passes.trans (h : c.Passes b c₁) (h' : c₁.Passes b' c₂) : c.Passes (b ++ b') c₂ := by
  refine ⟨?_, ?_⟩
  · rw [h.ahead_eq, h'.ahead_eq, List.append_assoc]
  · rw [h'.position_eq, h.position_eq, List.length_append, Nat.add_assoc]

theorem Passes.eq_of_nil (h : c.Passes [] c₁) : c₁ = c := by
  obtain ⟨position, ahead⟩ := c
  obtain ⟨hahead, hposition⟩ := h
  cases c₁
  simp_all

theorem Passes.split (h : c.Passes (b ++ b') c₂) : ∃ c₁, c.Passes b c₁ ∧ c₁.Passes b' c₂ := by
  refine ⟨⟨c.position + b.length, b' ++ c₂.ahead⟩, ⟨?_, rfl⟩, rfl, ?_⟩
  · rw [h.ahead_eq, List.append_assoc]
  · rw [h.position_eq, List.length_append, Nat.add_assoc]

theorem Passes.remaining (h : c.Passes b c₁) : c.remaining = b.length + c₁.remaining := by
  rw [Cursor.remaining, h.ahead_eq, List.length_append, Cursor.remaining]

theorem Spells.nil (c : Cursor) : c.Spells [] c := ⟨nofun, [], rfl, .refl c⟩

/-- **Rows of fields stand one behind the other.** -/
theorem Spells.append (h : c.Spells fs c₁) (h' : c₁.Spells gs c₂) : c.Spells (fs ++ gs) c₂ := by
  obtain ⟨b, hb, hpass⟩ := h.written
  obtain ⟨b', hb', hpass'⟩ := h'.written
  refine ⟨?_, b ++ b', Field.writeAll_append hb hb', hpass.trans hpass'⟩
  intro f hf
  exact (List.mem_append.mp hf).elim (h.fits f) (h'.fits f)

theorem Spells.cons (h : c.Spells [f] c₁) (h' : c₁.Spells fs c₂) : c.Spells (f :: fs) c₂ :=
  h.append h'

theorem Passes.spells (h : c.Passes b c₁) (hf : f.write = .ok b) (hfits : f.Fits) :
    c.Spells [f] c₁ := by
  refine ⟨?_, b, ?_, h⟩
  · rintro _ (_ | ⟨_, ⟨⟩⟩)
    exact hfits
  · rw [Field.writeAll_cons hf Field.writeAll_nil, List.append_nil]

theorem Spells.single (h : c.Spells [f] c₁) : ∃ b, f.write = .ok b ∧ f.Fits ∧ c.Passes b c₁ := by
  obtain ⟨b, hb, hpass⟩ := h.written
  obtain ⟨x, y, hx, hy, rfl⟩ := Field.writeAll_cons_inv hb
  cases hy
  rw [List.append_nil] at hpass
  exact ⟨x, hx, h.fits f List.mem_cons_self, hpass⟩

end Cursor

namespace Read

variable {α β : Type} {c c' : Cursor}

theorem Takes.run_of_passes {r : Read α} {b : Octets} {a : α} (h : Takes r b a) (hpass : c.Passes b c') :
    run r c = (.ok a, c') := by
  have hread := h c.position c'.ahead
  rwa [← hpass.ahead_eq, ← hpass.position_eq] at hread

/-- **A sequence gives a value exactly if each of its reads does.** -/
theorem run_bind_ok_iff {r : Read α} {f : α → Read β} {v : β} : run (r >>= f) c = (.ok v, c') ↔
    ∃ a c₁, run r c = (.ok a, c₁) ∧ run (f a) c₁ = (.ok v, c') := by
  constructor
  · intro h
    rw [run_bind] at h
    split at h
    · next a c₁ ha => exact ⟨a, c₁, ha, h⟩
    · cases h
  · rintro ⟨a, c₁, ha, hv⟩
    rw [run_bind_ok ha, hv]

theorem run_bind_pure_ok_iff {r : Read α} {f : α → β} {v : β} :
    run (r >>= fun a => pure (f a)) c = (.ok v, c') ↔ ∃ a, run r c = (.ok a, c') ∧ f a = v := by
  rw [run_bind_ok_iff]
  constructor
  · rintro ⟨a, c₁, ha, hv⟩
    cases hv
    exact ⟨a, ha, rfl⟩
  · rintro ⟨a, ha, rfl⟩
    exact ⟨a, c', ha, rfl⟩

/-! ## Octets and numbers -/

theorem passes_take {n : Nat} {b : Octets} (h : run (take n) c = (.ok b, c')) :
    c.Passes b c' ∧ b.length = n := by
  rw [take_run] at h
  by_cases hn : n ≤ c.remaining
  · rw [if_pos hn] at h
    cases h
    have hlen : (c.ahead.take n).length = n := List.length_take_of_le hn
    exact ⟨⟨(List.take_append_drop n c.ahead).symm, by rw [hlen]⟩, hlen⟩
  · rw [if_neg hn] at h
    cases h

theorem passes_expect {magic : Octets} (h : run (expect magic) c = (.ok (), c')) :
    c.Passes magic c' := by
  obtain ⟨found, c₁, hfound, hsame⟩ := run_bind_ok_iff.mp h
  by_cases hm : found = magic
  · rw [if_pos hm] at hsame
    cases hsame
    exact hm ▸ (passes_take hfound).1
  · rw [if_neg hm] at hsame
    cases hsame

theorem passes_number {width n : Nat} (h : run (number width) c = (.ok n, c')) :
    c.Passes (Octets.ofNat width n) c' ∧ n < 256 ^ width := by
  obtain ⟨b, hb, rfl⟩ := run_bind_pure_ok_iff.mp h
  obtain ⟨hpass, rfl⟩ := passes_take hb
  rw [Octets.ofNat_value]
  exact ⟨hpass, Octets.value_lt b⟩

theorem spells_u16 {n : UInt16} (h : run u16 c = (.ok n, c')) : c.Spells [.u16 n] c' := by
  obtain ⟨k, hk, rfl⟩ := run_bind_pure_ok_iff.mp h
  obtain ⟨hpass, hlt⟩ := passes_number hk
  refine hpass.spells ?_ trivial
  rw [Field.write, UInt16.toNat_ofNat_of_lt' hlt]

theorem spells_u32 {n : UInt32} (h : run u32 c = (.ok n, c')) : c.Spells [.u32 n] c' := by
  obtain ⟨k, hk, rfl⟩ := run_bind_pure_ok_iff.mp h
  obtain ⟨hpass, hlt⟩ := passes_number hk
  refine hpass.spells ?_ trivial
  rw [Field.write, UInt32.toNat_ofNat_of_lt' hlt]

theorem passes_u64 {n : UInt64} (h : run u64 c = (.ok n, c')) :
    c.Passes (Octets.ofNat 8 n.toNat) c' := by
  obtain ⟨k, hk, rfl⟩ := run_bind_pure_ok_iff.mp h
  obtain ⟨hpass, hlt⟩ := passes_number hk
  rwa [UInt64.toNat_ofNat_of_lt' hlt]

theorem spells_u64 {n : UInt64} (h : run u64 c = (.ok n, c')) : c.Spells [.u64 n] c' :=
  (passes_u64 h).spells rfl trivial

theorem spells_i64 {n : Int64} (h : run i64 c = (.ok n, c')) : c.Spells [.i64 n] c' := by
  obtain ⟨k, hk, rfl⟩ := run_bind_pure_ok_iff.mp h
  exact (passes_u64 hk).spells rfl trivial

theorem spells_f64 {x : Binary64} (h : run f64 c = (.ok x, c')) : c.Spells [.f64 x] c' := by
  obtain ⟨k, hk, rfl⟩ := run_bind_pure_ok_iff.mp h
  exact (passes_u64 hk).spells rfl trivial

theorem spells_token {t : Token} (h : run token c = (.ok t, c')) : c.Spells [.token t] c' := by
  obtain ⟨b, c₁, hb, ht⟩ := run_bind_ok_iff.mp h
  obtain ⟨hpass, hlen⟩ := passes_take hb
  have hof : Token.ofOctets? b = some ⟨b, hlen⟩ := dif_pos hlen
  rw [hof] at ht
  cases ht
  exact hpass.spells rfl trivial

/-! ## Texts -/

theorem passes_counted {raw : Octets} (h : run counted c = (.ok raw, c')) :
    raw.length ≤ frameLimit ∧ c.Passes (Octets.ofNat 4 raw.length ++ raw) c' := by
  obtain ⟨hlim, hahead, hpos⟩ := counted_ok_iff.mp h
  refine ⟨hlim, hahead, ?_⟩
  rw [hpos, List.length_append, Octets.length_ofNat]

/-- **A text that was read is written as the octets that were passed.** -/
theorem spells_utf16 {s : String} (h : run utf16 c = (.ok s, c')) : c.Spells [.utf16 s] c' := by
  obtain ⟨raw, c₁, hraw, hs⟩ := run_bind_ok_iff.mp h
  obtain ⟨hlim, hpass⟩ := passes_counted hraw
  cases htext : textOfUnits raw with
  | error fault =>
    rw [htext] at hs
    cases hs
  | ok t =>
    rw [htext] at hs
    cases hs
    have hsame := encode_of_textOfUnits htext
    have hcap : ¬ lengthLimit < raw.length := by
      unfold lengthLimit frameLimit at *
      omega
    refine hpass.spells ?_ ?_
    · rw [Field.write, hsame, Field.counted, if_neg hcap]
    · rw [Field.Fits, hsame]
      exact hlim

end Read

end BoothLink
