import BoothLink.Proofs.Text.Utf8
import BoothLink.Proofs.Wire.Canonical

/-!
# Rows of fields

A row of fields is read one after the other by the row of their types. What was written is read again as it
was, with the cursor behind it. If the octets hold something else, the first field that is not there says
what is wrong with them: it is cut, it is a text whose length is over the limit, or it is a text whose octets
no text has.

* `FieldType.readRow`: the read of a row, with `run_readRow_append`.
* `Read.takes_readRow`: a row that was written is read again.
* `Read.utf16_run`, `Read.textOfUnits_lone`: a text whose octets are there, and octets that no text has.
* `FieldType.Fault`: what is wrong with a token, a text or a port at the front of octets.
* `FieldType.read_of_fault`, `FieldType.exists_read`: such a field is there, or there is something wrong.
* **`FieldType.readRow_of_fault`**, **`FieldType.exists_readRow`**: the first fault of a row decides.
-/

namespace BoothLink

/-- Reads a row of fields one after the other. -/
def FieldType.readRow : List FieldType → Read (List Field)
  | [] => pure []
  | t :: ts => do
    let f ← t.read
    let fs ← readRow ts
    return f :: fs

namespace Read

variable {α β : Type} {c c' : Cursor} {e : WireError} {fs : List Field} {b : Octets}

/-- An error ends a sequence. -/
theorem error_bind {r : Read α} {f : α → Read β} (h : (run r c).1 = .error e) :
    (run (r >>= f) c).1 = .error e := by
  rw [run_bind]
  generalize run r c = found at h
  obtain ⟨answer, c₁⟩ := found
  cases h
  rfl

/-! ## Rows that were written -/

theorem takes_utf8 {s : String} (h : Field.write (.utf8 s) = .ok b)
    (hs : (Utf8.encode s.toList).length ≤ frameLimit) : Takes utf8 b s :=
  takes_checked h hs (textOfOctets_encode s)

theorem takes_read {f : Field} (h : f.write = .ok b) (hf : f.Fits) : Takes f.type.read b f := by
  cases f with
  | u16 n =>
    cases h
    exact (takes_u16 n).bind_pure _
  | u32 n =>
    cases h
    exact (takes_u32 n).bind_pure _
  | u64 n =>
    cases h
    exact (takes_u64 n).bind_pure _
  | i64 n =>
    cases h
    exact (takes_i64 n).bind_pure _
  | f64 x =>
    cases h
    exact (takes_f64 x).bind_pure _
  | token t =>
    cases h
    exact (takes_token t).bind_pure _
  | utf16 s => exact (takes_utf16 h hf).bind_pure _
  | utf8 s => exact (takes_utf8 h hf).bind_pure _

/-- **A row that was written is read again as it was.** -/
theorem takes_readRow (h : Field.writeAll fs = .ok b) (hfs : ∀ f ∈ fs, f.Fits) :
    Takes (FieldType.readRow (fs.map Field.type)) b fs := by
  induction fs generalizing b with
  | nil =>
    cases h
    exact takes_pure _
  | cons f fs ih =>
    obtain ⟨x, y, hx, hy, rfl⟩ := Field.writeAll_cons_inv h
    obtain ⟨hf, hrest⟩ := List.forall_mem_cons.mp hfs
    exact (takes_read hx hf).bind ((ih hy hrest).bind_pure _)

theorem run_readRow_of_spells (h : c.Spells fs c') :
    run (FieldType.readRow (fs.map Field.type)) c = (.ok fs, c') := by
  obtain ⟨b, hb, hpass⟩ := h.written
  exact (takes_readRow hb h.fits).run_of_passes hpass

/-! ## Texts whose octets are there -/

/-- **A text is looked at once its octets are there.** -/
theorem utf16_run (hlim : Octets.wordAt c.ahead 0 ≤ frameLimit)
    (h : 4 + Octets.wordAt c.ahead 0 ≤ c.remaining) : run utf16 c =
      run (checked (textOfUnits ((c.ahead.drop 4).take (Octets.wordAt c.ahead 0))))
        ⟨c.position + (4 + Octets.wordAt c.ahead 0), c.ahead.drop (4 + Octets.wordAt c.ahead 0)⟩ := by
  have hraw : run counted c = (.ok ((c.ahead.drop 4).take (Octets.wordAt c.ahead 0)),
      ⟨c.position + (4 + Octets.wordAt c.ahead 0), c.ahead.drop (4 + Octets.wordAt c.ahead 0)⟩) := by
    rw [counted_run, if_neg (by omega)]
    simp only [Octets.wordAt, List.drop_zero] at *
    rw [if_neg (by omega), if_neg (by omega), Nat.add_assoc]
  rw [utf16, run_bind_ok hraw]

/-- Octets of even number that no text is written as lack a half of a pair. -/
theorem textOfUnits_lone {raw : Octets} (heven : raw.length % 2 = 0)
    (h : ∀ s : String, Utf16.encode s.toList ≠ raw) : textOfUnits raw = .error .loneSurrogate := by
  cases htext : textOfUnits raw with
  | ok s => exact absurd (encode_of_textOfUnits htext) (h s)
  | error fault =>
    rw [textOfUnits, if_neg (by omega)] at htext
    split at htext <;> cases htext
    rfl

end Read

/-! ## What is wrong -/

/-- What is wrong with a token, a text or a port at the front of octets. -/
inductive FieldType.Fault : FieldType → Octets → WireError → Prop
  | tokenCut {b : Octets} (h : b.length < 16) : Fault .token b .truncated
  | portCut {b : Octets} (h : b.length < 2) : Fault .u16 b .truncated
  | textCut {b : Octets} (h : CutsCounted b) : Fault .utf16 b .truncated
  | tooLarge {b : Octets} (h : 4 ≤ b.length) (hlarge : frameLimit < b.wordAt 0) :
      Fault .utf16 b (.tooLarge (b.wordAt 0) frameLimit)
  | oddText {b : Octets} (h : 4 + b.wordAt 0 ≤ b.length) (hlim : b.wordAt 0 ≤ frameLimit)
      (hodd : b.wordAt 0 % 2 = 1) : Fault .utf16 b (.encoding (.oddLength (b.wordAt 0)))
  /-- Whole units that are no text. -/
  | brokenText {b : Octets} (h : 4 + b.wordAt 0 ≤ b.length) (hlim : b.wordAt 0 ≤ frameLimit)
      (heven : b.wordAt 0 % 2 = 0)
      (hbroken : ∀ s : String, Utf16.encode s.toList ≠ (b.drop 4).take (b.wordAt 0)) :
      Fault .utf16 b (.encoding .loneSurrogate)

namespace FieldType

open Read

variable {t : FieldType} {ts us : List FieldType} {c c' : Cursor} {e : WireError} {fs : List Field}

theorem length_text {b : Octets} (h : 4 + b.wordAt 0 ≤ b.length) :
    ((b.drop 4).take (b.wordAt 0)).length = b.wordAt 0 := by
  rw [List.length_take, List.length_drop]
  omega

/-- **What is wrong with a field is said of it when it is read.** -/
theorem read_of_fault (h : t.Fault c.ahead e) : (run t.read c).1 = .error e := by
  obtain ⟨p, b⟩ := c
  simp only at h
  cases h with
  | tokenCut h => exact error_bind (fixed_token.runsOut settled_token h)
  | portCut h => exact error_bind (fixed_u16.runsOut settled_u16 h)
  | textCut h => exact error_bind (runsOut_utf16.mpr h)
  | tooLarge h hlarge =>
    exact error_bind (error_bind (congrArg Prod.fst (counted_tooLarge (c := ⟨p, b⟩) h hlarge)))
  | oddText h hlim hodd =>
    refine error_bind ?_
    have hlen := length_text h
    rw [utf16_run (c := ⟨p, b⟩) hlim h, textOfUnits, hlen, if_pos (by omega)]
    rfl
  | brokenText h hlim heven hbroken =>
    refine error_bind ?_
    have hlen := length_text h
    rw [utf16_run (c := ⟨p, b⟩) hlim h, textOfUnits_lone (by rwa [hlen]) hbroken]
    rfl

/-- A text is there, or something is wrong with it. -/
theorem exists_text (c : Cursor) :
    (∃ s c', run Read.utf16 c = (.ok s, c')) ∨ ∃ e, Fault .utf16 c.ahead e := by
  by_cases hcut : CutsCounted c.ahead
  · exact .inr ⟨_, .textCut hcut⟩
  have hfour : 4 ≤ c.ahead.length := Nat.not_lt.mp fun h => hcut (.inl h)
  by_cases hlarge : frameLimit < c.ahead.wordAt 0
  · exact .inr ⟨_, .tooLarge hfour hlarge⟩
  have hlim : c.ahead.wordAt 0 ≤ frameLimit := Nat.not_lt.mp hlarge
  have hwhole : 4 + c.ahead.wordAt 0 ≤ c.ahead.length := Nat.not_lt.mp fun h => hcut (.inr ⟨hlim, h⟩)
  by_cases hodd : c.ahead.wordAt 0 % 2 = 1
  · exact .inr ⟨_, .oddText hwhole hlim hodd⟩
  by_cases htext : ∃ s : String, Utf16.encode s.toList = (c.ahead.drop 4).take (c.ahead.wordAt 0)
  · obtain ⟨s, hs⟩ := htext
    have hrun := utf16_run hlim hwhole
    rw [← hs, textOfUnits_encode] at hrun
    exact .inl ⟨s, _, hrun⟩
  · exact .inr ⟨_, .brokenText hwhole hlim (by omega) fun s hs => htext ⟨s, hs⟩⟩

/-- **A field is there, or something is wrong with it.** -/
theorem exists_read (ht : t ∈ [.token, .utf16, .u16]) (c : Cursor) :
    (∃ f c', f.type = t ∧ c.Spells [f] c') ∨ ∃ e, t.Fault c.ahead e := by
  simp only [List.mem_cons, List.not_mem_nil, or_false] at ht
  rcases ht with rfl | rfl | rfl
  · by_cases hcut : c.ahead.length < 16
    · exact .inr ⟨_, .tokenCut hcut⟩
    · obtain ⟨a, ha⟩ := fixed_token c (Nat.not_lt.mp hcut)
      exact .inl ⟨.token a, _, rfl, spells_token ha⟩
  · obtain ⟨s, c', hs⟩ | hfault := exists_text c
    · exact .inl ⟨.utf16 s, c', rfl, spells_utf16 hs⟩
    · exact .inr hfault
  · by_cases hcut : c.ahead.length < 2
    · exact .inr ⟨_, .portCut hcut⟩
    · obtain ⟨n, hn⟩ := fixed_u16 c (Nat.not_lt.mp hcut)
      exact .inl ⟨.u16 n, _, rfl, spells_u16 hn⟩

/-! ## Rows -/

/-- A row is read by reading its first part and then the rest. -/
theorem run_readRow_append (h : run (readRow ts) c = (.ok fs, c')) :
    run (readRow (ts ++ us)) c = run (readRow us >>= fun gs => pure (fs ++ gs)) c' := by
  induction ts generalizing c fs with
  | nil =>
    cases h
    show run (readRow us) c' = _
    rw [run_bind]
    cases hus : run (readRow us) c' with
    | mk answer c₁ => cases answer <;> rfl
  | cons t ts ih =>
    obtain ⟨f, c₁, hf, hrest⟩ := run_bind_ok_iff.mp h
    obtain ⟨fs, hfs, rfl⟩ := run_bind_pure_ok_iff.mp hrest
    rw [List.cons_append, readRow, run_bind_ok hf, run_bind, ih hfs, run_bind, run_bind]
    cases hus : run (readRow us) c' with
    | mk answer c₂ => cases answer <;> rfl

/-- **The first thing that is wrong with a row is said of it when it is read.** -/
theorem readRow_of_fault (h : c.Spells fs c') (hrow : fs.map Field.type ++ [t] <+: ts)
    (hfault : t.Fault c'.ahead e) : (run (readRow ts) c).1 = .error e := by
  obtain ⟨us, rfl⟩ := hrow
  rw [List.append_assoc, run_readRow_append (run_readRow_of_spells h)]
  exact error_bind (error_bind (read_of_fault hfault))

/-- **The fields of a row are there, or something is wrong with one behind others that are there.** -/
theorem exists_readRow (hts : ∀ t ∈ ts, t ∈ [.token, .utf16, .u16]) (c : Cursor) :
    (∃ fs c', c.Spells fs c' ∧ fs.map Field.type = ts) ∨
      ∃ fs t c' e, c.Spells fs c' ∧ fs.map Field.type ++ [t] <+: ts ∧ t.Fault c'.ahead e := by
  induction ts generalizing c with
  | nil => exact .inl ⟨[], c, .nil c, rfl⟩
  | cons t ts ih =>
    obtain ⟨ht, hrest⟩ := List.forall_mem_cons.mp hts
    obtain ⟨f, c₁, rfl, hf⟩ | ⟨e, he⟩ := exists_read ht c
    · obtain ⟨fs, c', hfs, rfl⟩ | ⟨fs, u, c', e, hfs, hrow, he⟩ := ih hrest c₁
      · exact .inl ⟨f :: fs, c', hf.cons hfs, rfl⟩
      · exact .inr ⟨f :: fs, u, c', e, hf.cons hfs, List.cons_prefix_cons.mpr ⟨rfl, hrow⟩, he⟩
    · exact .inr ⟨[], t, c, e, .nil c, List.cons_prefix_cons.mpr ⟨rfl, List.nil_prefix⟩, he⟩

end FieldType

end BoothLink
