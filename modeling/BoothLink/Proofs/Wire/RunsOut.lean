import BoothLink.Proofs.Wire.RoundTrip
import BoothLink.Proofs.Wire.Settled

/-!
# Reads that run out of octets

A read *runs out* if the octets end before it has what it asks for. A number runs out if it is cut; a
text runs out if its length is cut, or if the length announces more octets than come. Reads of a fixed
extent never run out when as many octets are ahead, whatever these are, and always with fewer.

* `Read.RunsOut`, with `runsOut_bind` for sequences.
* `number_run`, `counted_run`: what numbers and counted octets give, from the octets ahead.
* `CutsCounted`, `TextThen`: octets that cut a text, and octets behind a text.
* **`runsOut_utf16`**, **`utf16_ok_iff`**: when a text runs out, and when it is read.
* `Read.Fixed`: reads of a fixed extent, `Fixed.runsOut` for when they run out.
-/

namespace BoothLink

namespace Read

variable {α β : Type}

/-- The octets end before the read does. -/
def RunsOut (r : Read α) (c : Cursor) : Prop := (run r c).1 = .error .truncated

/-- **A sequence runs out in its first read or behind it.** -/
theorem runsOut_bind {r : Read α} {f : α → Read β} {c : Cursor} :
    RunsOut (r >>= f) c ↔ RunsOut r c ∨ ∃ a c', run r c = (.ok a, c') ∧ RunsOut (f a) c' := by
  unfold RunsOut
  rw [run_bind]
  generalize run r c = found
  obtain ⟨answer, c₁⟩ := found
  cases answer with
  | ok a =>
    constructor
    · intro h
      exact .inr ⟨a, c₁, rfl, h⟩
    · rintro (h | ⟨a', c', h, hout⟩)
      · cases h
      · cases h
        exact hout
  | error e =>
    constructor
    · intro h
      cases h
      exact .inl rfl
    · rintro (h | ⟨a', c', h, -⟩)
      · cases h
        rfl
      · cases h

theorem runsOut_bind_pure {r : Read α} {f : α → β} {c : Cursor} :
    RunsOut (r >>= fun a => pure (f a)) c ↔ RunsOut r c := by
  rw [runsOut_bind]
  constructor
  · rintro (h | ⟨a, c', -, h⟩)
    · exact h
    · cases h
  · intro h
    exact .inl h

/-! ## Numbers and counted octets -/

/-- **A number is read exactly if its octets are there.** -/
theorem number_run (width : Nat) (c : Cursor) :
    run (number width) c =
      if width ≤ c.remaining then
        (.ok (Octets.value (c.ahead.take width)), ⟨c.position + width, c.ahead.drop width⟩)
      else (.error .truncated, c) := by
  rw [number, run_bind, take_run]
  by_cases h : width ≤ c.remaining
  · rw [if_pos h, if_pos h]
    rfl
  · rw [if_neg h, if_neg h]

theorem runsOut_number {width : Nat} {c : Cursor} :
    RunsOut (number width) c ↔ c.remaining < width := by
  rw [RunsOut, number_run]
  by_cases h : width ≤ c.remaining
  · rw [if_pos h]
    constructor
    · intro hout
      cases hout
    · intro hlt
      exact absurd h (Nat.not_le.mpr hlt)
  · rw [if_neg h]
    constructor
    · intro _
      exact Nat.not_le.mp h
    · intro _
      rfl

theorem runsOut_u32 {c : Cursor} : RunsOut u32 c ↔ c.remaining < 4 :=
  runsOut_bind_pure.trans runsOut_number

/-- **Octets behind their number**: the number may be cut or too large, and they may be cut. -/
theorem counted_run (c : Cursor) :
    run counted c =
      if c.remaining < 4 then (.error .truncated, c)
      else
        let size := Octets.value (c.ahead.take 4)
        if frameLimit < size then
          (.error (.tooLarge size frameLimit), ⟨c.position + 4, c.ahead.drop 4⟩)
        else if c.remaining < 4 + size then (.error .truncated, ⟨c.position + 4, c.ahead.drop 4⟩)
        else (.ok ((c.ahead.drop 4).take size), ⟨c.position + 4 + size, c.ahead.drop (4 + size)⟩) := by
  rw [counted, run_bind, number_run]
  by_cases h : c.remaining < 4
  · rw [if_pos h, if_neg (Nat.not_le.mpr h)]
  · rw [if_neg h, if_pos (Nat.not_lt.mp h)]
    by_cases hlim : frameLimit < Octets.value (c.ahead.take 4)
    · simp only [if_pos hlim, run_fail]
    · have hbehind : (Cursor.mk (c.position + 4) (c.ahead.drop 4)).remaining = c.remaining - 4 :=
        List.length_drop
      simp only [if_neg hlim, take_run, hbehind, List.drop_drop]
      by_cases hcut : c.remaining < 4 + Octets.value (c.ahead.take 4)
      · rw [if_neg (by omega), if_pos hcut]
      · rw [if_pos (by omega), if_neg hcut]

/-- A length is held against the limit as soon as it is there. -/
theorem counted_tooLarge {c : Cursor} (h : 4 ≤ c.remaining) (hlarge : frameLimit < Octets.wordAt c.ahead 0) :
    run counted c = (.error (.tooLarge (Octets.wordAt c.ahead 0) frameLimit),
      ⟨c.position + 4, c.ahead.drop 4⟩) := by
  rw [counted_run, if_neg (Nat.not_lt.mpr h)]
  exact if_pos hlarge

end Read

/-- Octets that end inside a text or a frame: in its length, or before as many as the length says. -/
def CutsCounted (b : Octets) : Prop :=
  b.length < 4 ∨
    Octets.value (b.take 4) ≤ frameLimit ∧ b.length < 4 + Octets.value (b.take 4)

instance : DecidablePred CutsCounted := fun b => by unfold CutsCounted; infer_instance

/-- Octets that begin with a text, and those behind it. -/
def TextThen (b rest : Octets) : Prop :=
  ∃ raw s, raw.length ≤ frameLimit ∧ Read.textOfUnits raw = .ok s ∧
    b = Octets.ofNat 4 raw.length ++ raw ++ rest

namespace Read

variable {α β : Type}

theorem runsOut_counted {c : Cursor} : RunsOut counted c ↔ CutsCounted c.ahead := by
  rw [RunsOut, counted_run]
  show _ ↔ c.remaining < 4 ∨
    Octets.value (c.ahead.take 4) ≤ frameLimit ∧ c.remaining < 4 + Octets.value (c.ahead.take 4)
  by_cases h : c.remaining < 4
  · rw [if_pos h]
    exact ⟨fun _ => .inl h, fun _ => rfl⟩
  by_cases hlim : frameLimit < Octets.value (c.ahead.take 4)
  · simp only [if_neg h, if_pos hlim]
    constructor
    · intro hout
      cases hout
    · rintro (hshort | ⟨hle, -⟩)
      · exact absurd hshort h
      · exact absurd hlim (Nat.not_lt.mpr hle)
  by_cases hcut : c.remaining < 4 + Octets.value (c.ahead.take 4)
  · simp only [if_neg h, if_neg hlim, if_pos hcut, true_iff]
    exact .inr ⟨Nat.not_lt.mp hlim, hcut⟩
  · simp only [if_neg h, if_neg hlim, if_neg hcut]
    constructor
    · intro hout
      cases hout
    · rintro (hshort | ⟨-, hlt⟩)
      · exact absurd hshort h
      · exact absurd hlt hcut

/-- Counted octets are read exactly if they are ahead behind their number. -/
theorem counted_ok_iff {c c' : Cursor} {raw : Octets} : run counted c = (.ok raw, c') ↔
    raw.length ≤ frameLimit ∧ c.ahead = Octets.ofNat 4 raw.length ++ raw ++ c'.ahead ∧
      c'.position = c.position + (4 + raw.length) := by
  constructor
  · intro h
    rw [counted_run] at h
    by_cases hshort : c.remaining < 4
    · rw [if_pos hshort] at h
      cases h
    by_cases hlim : frameLimit < Octets.value (c.ahead.take 4)
    · simp only [if_neg hshort, if_pos hlim] at h
      cases h
    by_cases hcut : c.remaining < 4 + Octets.value (c.ahead.take 4)
    · simp only [if_neg hshort, if_neg hlim, if_pos hcut] at h
      cases h
    simp only [if_neg hshort, if_neg hlim, if_neg hcut] at h
    cases h
    have hlen : c.ahead.length = c.remaining := rfl
    have hraw : ((c.ahead.drop 4).take (Octets.value (c.ahead.take 4))).length =
        Octets.value (c.ahead.take 4) := by
      rw [List.length_take, List.length_drop]
      omega
    have hsize : Octets.ofNat 4 (Octets.value (c.ahead.take 4)) = c.ahead.take 4 := by
      have hfour : (c.ahead.take 4).length = 4 := by
        rw [List.length_take]
        omega
      have hback := Octets.ofNat_value (c.ahead.take 4)
      rwa [hfour] at hback
    rw [hraw]
    refine ⟨Nat.not_lt.mp hlim, ?_, Nat.add_assoc _ _ _⟩
    rw [hsize, List.append_assoc, ← List.drop_drop, List.take_append_drop, List.take_append_drop]
  · obtain ⟨p, b⟩ := c
    obtain ⟨p', b'⟩ := c'
    rintro ⟨hlim, hahead, hpos⟩
    have h := takes_counted hlim p b'
    rw [List.length_append, Octets.length_ofNat] at h
    simp only at hahead hpos
    rw [hahead, hpos, h]

/-! ## Texts -/

theorem not_runsOut_checked (r : Except TextFault String) (c : Cursor) : ¬ RunsOut (checked r) c := by
  intro h
  cases r with
  | ok s => cases h
  | error fault => cases h

/-- **A text runs out exactly if its octets are cut.** -/
theorem runsOut_utf16 {c : Cursor} : RunsOut utf16 c ↔ CutsCounted c.ahead := by
  rw [utf16, runsOut_bind, runsOut_counted]
  constructor
  · rintro (h | ⟨raw, c', -, h⟩)
    · exact h
    · exact absurd h (not_runsOut_checked _ _)
  · intro h
    exact .inl h

/-- **What is behind a text that was read.** -/
theorem utf16_ok_iff {c : Cursor} {rest : Octets} :
    (∃ s p, run utf16 c = (.ok s, ⟨p, rest⟩)) ↔ TextThen c.ahead rest := by
  constructor
  · rintro ⟨s, p, h⟩
    rw [utf16, run_bind] at h
    split at h
    · next raw c₁ hraw =>
      obtain ⟨hlim, hahead, -⟩ := counted_ok_iff.mp hraw
      cases htext : textOfUnits raw with
      | ok s' =>
        rw [htext] at h
        cases h
        exact ⟨raw, s, hlim, htext, hahead⟩
      | error fault =>
        rw [htext] at h
        cases h
    · cases h
  · rintro ⟨raw, s, hlim, htext, hahead⟩
    have hraw : run counted c = (.ok raw, ⟨c.position + (4 + raw.length), rest⟩) :=
      counted_ok_iff.mpr ⟨hlim, hahead, rfl⟩
    refine ⟨s, c.position + (4 + raw.length), ?_⟩
    rw [utf16, run_bind_ok hraw, htext]
    rfl

/-- A text and one more read run out in the text or behind it. -/
theorem runsOut_utf16_bind {f : String → Read β} {P : Octets → Prop}
    (hf : ∀ s c, RunsOut (f s) c ↔ P c.ahead) {c : Cursor} :
    RunsOut (utf16 >>= f) c ↔ CutsCounted c.ahead ∨ ∃ rest, TextThen c.ahead rest ∧ P rest := by
  rw [runsOut_bind, runsOut_utf16]
  constructor
  · rintro (h | ⟨s, ⟨p, rest⟩, hs, hout⟩)
    · exact .inl h
    · exact .inr ⟨rest, utf16_ok_iff.mp ⟨s, p, hs⟩, (hf s ⟨p, rest⟩).mp hout⟩
  · rintro (h | ⟨rest, htext, hP⟩)
    · exact .inl h
    · obtain ⟨s, p, hs⟩ := utf16_ok_iff.mpr htext
      exact .inr ⟨s, ⟨p, rest⟩, hs, (hf s ⟨p, rest⟩).mpr hP⟩

/-! ## Reads of a fixed extent -/

/-- With so many octets ahead the read gives a value and passes exactly them. -/
def Fixed (r : Read α) (n : Nat) : Prop :=
  ∀ c, n ≤ c.remaining → ∃ a, run r c = (.ok a, ⟨c.position + n, c.ahead.drop n⟩)

theorem fixed_pure (a : α) : Fixed (pure a : Read α) 0 := fun _ _ => ⟨a, rfl⟩

theorem Fixed.bind {r : Read α} {f : α → Read β} {n m : Nat} (hr : Fixed r n)
    (hf : ∀ a, Fixed (f a) m) : Fixed (r >>= f) (n + m) := by
  intro c hc
  obtain ⟨a, ha⟩ := hr c (by omega)
  have hm : m ≤ (Cursor.mk (c.position + n) (c.ahead.drop n)).remaining := by
    simp only [Cursor.remaining, List.length_drop] at *
    omega
  obtain ⟨v, hv⟩ := hf a _ hm
  refine ⟨v, ?_⟩
  rw [run_bind_ok ha, hv, List.drop_drop, Nat.add_assoc]

theorem Fixed.bind_pure {r : Read α} {n : Nat} (hr : Fixed r n) (f : α → β) :
    Fixed (r >>= fun a => pure (f a)) n := hr.bind fun a => fixed_pure (f a)

theorem fixed_number (width : Nat) : Fixed (number width) width := by
  intro c hc
  rw [number_run, if_pos hc]
  exact ⟨_, rfl⟩

theorem fixed_u16 : Fixed u16 2 := (fixed_number 2).bind_pure _

theorem fixed_u32 : Fixed u32 4 := (fixed_number 4).bind_pure _

theorem fixed_u64 : Fixed u64 8 := (fixed_number 8).bind_pure _

theorem fixed_i64 : Fixed i64 8 := fixed_u64.bind_pure _

theorem fixed_f64 : Fixed f64 8 := fixed_u64.bind_pure _

theorem fixed_token : Fixed token 16 := by
  intro c hc
  have hlen : (c.ahead.take 16).length = 16 := List.length_take_of_le hc
  have htake : run (take Token.width) c = (.ok (c.ahead.take 16), ⟨c.position + 16, c.ahead.drop 16⟩) := by
    rw [take_run, Token.width, if_pos hc]
  have htoken : Token.ofOctets? (c.ahead.take 16) = some ⟨_, hlen⟩ := dif_pos hlen
  refine ⟨⟨_, hlen⟩, ?_⟩
  rw [token, run_bind_ok htake, htoken]
  rfl

/-- **A read of a fixed extent runs out if fewer octets are ahead.** -/
theorem Fixed.runsOut {r : Read α} {n : Nat} (hr : Fixed r n) (hs : Settled r) {c : Cursor}
    (h : c.remaining < n) : RunsOut r c := by
  have hlen : c.ahead.length = c.remaining := rfl
  set more : Octets := List.replicate (n - c.remaining) 0 with hmore
  have hall : (c.extend more).remaining = n := by
    simp only [Cursor.extend, Cursor.remaining, hmore, List.length_append, List.length_replicate] at *
    omega
  obtain ⟨a, ha⟩ := hr (c.extend more) hall.ge
  rw [RunsOut]
  generalize hrun : run r c = found
  obtain ⟨answer, c'⟩ := found
  cases answer with
  | ok v =>
    -- With the octets that were missing, nothing would be left, but those octets would be.
    have hmoved := (hs.ok hrun more).symm.trans ha
    have hnone : c'.ahead ++ more = [] :=
      (congrArg (fun x => x.2.ahead) hmoved).trans (List.drop_eq_nil_of_le hall.le)
    have hpos : 0 < more.length := by
      rw [hmore, List.length_replicate]
      omega
    simp [(List.append_eq_nil_iff.mp hnone).2] at hpos
  | error e =>
    by_cases he : e = .truncated
    · rw [he]
    · have hfailed := (hs.error hrun he more).symm.trans ha
      cases hfailed

end Read

end BoothLink
