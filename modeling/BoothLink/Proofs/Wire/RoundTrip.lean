import BoothLink.Message.Encode
import BoothLink.Proofs.Octets
import BoothLink.Proofs.Text.Utf16

/-!
# Reads take off what was written

A read *takes* octets if, with these octets ahead, it gives one value and stops right behind them,
whatever follows. Reads in sequence take the octets of each in turn, so that a row of fields is read
back by the row of their reads.

* `Read.Takes`, with `Takes.bind` for sequences.
* `takes_number`, `takes_u16` … `takes_utf16`: the typed reads take what their fields write.
* `Field.Fits`: a text field that a reader accepts; every other field.
* `Field.writeAll_cons_inv`, `Field.writeAll_append_inv`: the octets of a row are those of its parts.
-/

namespace BoothLink

namespace Read

variable {α β : Type}

/-- With these octets ahead the read gives the value and passes exactly them. -/
def Takes (r : Read α) (b : Octets) (a : α) : Prop :=
  ∀ p rest, run r ⟨p, b ++ rest⟩ = (.ok a, ⟨p + b.length, rest⟩)

theorem takes_pure (a : α) : Takes (pure a : Read α) [] a := fun _ _ => rfl

theorem takes_give (a : α) : Takes (give a) [] a := fun _ _ => rfl

/-- **Reads in sequence take the octets of both.** -/
theorem Takes.bind {r : Read α} {f : α → Read β} {b c : Octets} {a : α} {v : β}
    (hr : Takes r b a) (hf : Takes (f a) c v) : Takes (r >>= f) (b ++ c) v := by
  intro p rest
  rw [List.append_assoc, run_bind_ok (hr p (c ++ rest)), hf, List.length_append, Nat.add_assoc]

theorem Takes.bind_nil {r : Read α} {f : α → Read β} {b : Octets} {a : α} {v : β}
    (hr : Takes r b a) (hf : Takes (f a) [] v) : Takes (r >>= f) b v := by
  have h := hr.bind hf
  rwa [List.append_nil] at h

theorem Takes.bind_pure {r : Read α} {b : Octets} {a : α} (hr : Takes r b a) (f : α → β) :
    Takes (r >>= fun x => pure (f x)) b (f a) := hr.bind_nil (takes_pure (f a))

/-! ## Octets and numbers -/

theorem takes_take (b : Octets) : Takes (take b.length) b b := by
  intro p rest
  have hle : b.length ≤ (Cursor.mk p (b ++ rest)).remaining := by
    simp [Cursor.remaining]
  rw [take_run, if_pos hle]
  simp

theorem takes_expect (magic : Octets) : Takes (expect magic) magic () := by
  refine (takes_take magic).bind_nil ?_
  rw [if_pos rfl]
  exact takes_pure ()

theorem takes_number {n : Nat} (width : Nat) (h : n < 256 ^ width) :
    Takes (number width) (Octets.ofNat width n) n := by
  have hb := takes_take (Octets.ofNat width n)
  rw [Octets.length_ofNat] at hb
  have hv : Octets.value (Octets.ofNat width n) = n := by
    rw [Octets.value_ofNat, Nat.mod_eq_of_lt h]
  have hn := hb.bind_pure Octets.value
  rwa [hv] at hn

theorem takes_u16 (n : UInt16) : Takes u16 (Octets.ofNat 2 n.toNat) n := by
  have h := (takes_number 2 n.toNat_lt).bind_pure UInt16.ofNat
  rwa [UInt16.ofNat_toNat] at h

theorem takes_u32 (n : UInt32) : Takes u32 (Octets.ofNat 4 n.toNat) n := by
  have h := (takes_number 4 n.toNat_lt).bind_pure UInt32.ofNat
  rwa [UInt32.ofNat_toNat] at h

theorem takes_u64 (n : UInt64) : Takes u64 (Octets.ofNat 8 n.toNat) n := by
  have h := (takes_number 8 n.toNat_lt).bind_pure UInt64.ofNat
  rwa [UInt64.ofNat_toNat] at h

theorem takes_i64 (n : Int64) : Takes i64 (Octets.ofNat 8 n.toUInt64.toNat) n :=
  (takes_u64 n.toUInt64).bind_pure UInt64.toInt64

theorem takes_f64 (x : Binary64) : Takes f64 (Octets.ofNat 8 x.bits.toNat) x :=
  (takes_u64 x.bits).bind_pure Binary64.mk

theorem takes_token (t : Token) : Takes token t.octets t := by
  have hb := takes_take t.octets
  rw [t.length_eq] at hb
  have ht : Token.ofOctets? t.octets = some t := dif_pos t.length_eq
  refine hb.bind_nil ?_
  rw [ht]
  exact takes_pure t

/-! ## Texts and frames -/

theorem takes_counted {b : Octets} (h : b.length ≤ frameLimit) :
    Takes counted (Octets.ofNat 4 b.length ++ b) b := by
  have hlt : b.length < 256 ^ 4 := by
    unfold frameLimit at h
    omega
  refine (takes_number 4 hlt).bind ?_
  rw [if_neg (Nat.not_lt.mpr h)]
  exact takes_take b

/-- A text is taken with its number, whatever its octets stand for it. -/
theorem takes_checked {decode : Octets → Except TextFault String} {s : String} {raw b : Octets}
    (h : Field.counted raw = .ok b) (hraw : raw.length ≤ frameLimit) (hs : decode raw = .ok s) :
    Takes (counted >>= fun raw => checked (decode raw)) b s := by
  have hlim : ¬ lengthLimit < raw.length := by
    unfold lengthLimit frameLimit at *
    omega
  rw [Field.counted, if_neg hlim] at h
  cases h
  refine (takes_counted hraw).bind_nil ?_
  rw [hs]
  exact takes_give s

theorem takes_utf16 {s : String} {b : Octets} (h : Field.write (.utf16 s) = .ok b)
    (hs : (Utf16.encode s.toList).length ≤ frameLimit) : Takes utf16 b s :=
  takes_checked h hs (textOfUnits_encode s)

end Read

namespace Field

/-- A text that is short enough to be read again; any other field. -/
def Fits : Field → Prop
  | utf16 s => (Utf16.encode s.toList).length ≤ frameLimit
  | utf8 s => (Utf8.encode s.toList).length ≤ frameLimit
  | _ => True

instance : DecidablePred Fits := fun f =>
  match f with
  | utf16 s => inferInstanceAs (Decidable ((Utf16.encode s.toList).length ≤ frameLimit))
  | utf8 s => inferInstanceAs (Decidable ((Utf8.encode s.toList).length ≤ frameLimit))
  | u16 _ | u32 _ | u64 _ | i64 _ | f64 _ | token _ => .isTrue trivial

theorem writeAll_cons_inv {f : Field} {fs : List Field} {b : Octets}
    (h : writeAll (f :: fs) = .ok b) :
    ∃ x y, f.write = .ok x ∧ writeAll fs = .ok y ∧ b = x ++ y := by
  rw [writeAll] at h
  split at h
  · cases h
  · next x hx =>
    split at h
    · cases h
    · next y hy =>
      cases h
      exact ⟨x, y, hx, hy, rfl⟩

theorem writeAll_append_inv {fs gs : List Field} {b : Octets}
    (h : writeAll (fs ++ gs) = .ok b) :
    ∃ x y, writeAll fs = .ok x ∧ writeAll gs = .ok y ∧ b = x ++ y := by
  induction fs generalizing b with
  | nil => exact ⟨[], b, rfl, h, rfl⟩
  | cons f fs ih =>
    obtain ⟨x, y, hx, hy, rfl⟩ := writeAll_cons_inv h
    obtain ⟨u, v, hu, hv, rfl⟩ := ih hy
    exact ⟨x ++ u, v, writeAll_cons hx hu, hv, by rw [List.append_assoc]⟩

end Field

end BoothLink
