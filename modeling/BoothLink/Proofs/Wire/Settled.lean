import BoothLink.Message.Decode
import BoothLink.Proofs.Wire.RoundTrip

/-!
# Reads that more octets do not change

As octets trickle in, the same read is tried on longer and longer beginnings of a stream. A read is
*settled* if its answer stands whatever comes after: a value stays that value and an error that error,
and only "the octets end too early" may turn into something else. Every read is settled that looks at
the octets ahead only by taking them.

* `Cursor.extend`: the cursor with more octets behind those ahead.
* `Read.Settled`, with `Settled.bind`; the typed reads and frames are settled.
* **`Takes.truncated`**: a settled read finds no value and no other error in a proper beginning of the
  octets that it takes.
-/

namespace BoothLink

/-- The cursor with more octets behind those ahead. -/
def Cursor.extend (c : Cursor) (more : Octets) : Cursor := ⟨c.position, c.ahead ++ more⟩

namespace Read

variable {α β : Type}

/-- More octets change nothing, unless there were too few. -/
structure Settled (r : Read α) : Prop where
  ok : ∀ {c c' : Cursor} {a : α}, run r c = (.ok a, c') → ∀ more,
    run r (c.extend more) = (.ok a, c'.extend more)
  error : ∀ {c c' : Cursor} {e : WireError}, run r c = (.error e, c') → e ≠ .truncated → ∀ more,
    run r (c.extend more) = (.error e, c'.extend more)

theorem settled_give (a : α) : Settled (give a) where
  ok h _ := by cases h; rfl
  error h := by cases h

theorem settled_pure (a : α) : Settled (pure a : Read α) := settled_give a

theorem settled_fail (e : WireError) : Settled (fail e : Read α) where
  ok h := by cases h
  error h _ _ := by cases h; rfl

/-- **Settled reads in sequence are settled.** -/
theorem Settled.bind {r : Read α} {f : α → Read β} (hr : Settled r) (hf : ∀ a, Settled (f a)) :
    Settled (r >>= f) where
  ok := by
    intro c c' v h more
    rw [run_bind] at h
    split at h
    · next a c₁ h₁ =>
      rw [run_bind_ok (hr.ok h₁ more)]
      exact (hf a).ok h more
    · cases h
  error := by
    intro c c' e h he more
    rw [run_bind] at h
    split at h
    · next a c₁ h₁ =>
      rw [run_bind_ok (hr.ok h₁ more)]
      exact (hf a).error h he more
    · next e₁ c₁ h₁ =>
      cases h
      rw [run_bind_error (hr.error h₁ he more)]

/-! ## Octets and numbers -/

theorem settled_take (n : Nat) : Settled (take n) where
  ok := by
    intro c c' b h more
    rw [take_run] at h
    by_cases hn : n ≤ c.remaining
    · rw [if_pos hn] at h
      cases h
      have hm : n ≤ (c.extend more).remaining := by
        simp only [Cursor.remaining, Cursor.extend, List.length_append] at *
        omega
      rw [take_run, if_pos hm]
      simp only [Cursor.extend, List.take_append_of_le_length hn, List.drop_append_of_le_length hn]
    · rw [if_neg hn] at h
      cases h
  error := by
    intro c c' e h he
    rw [take_run] at h
    by_cases hn : n ≤ c.remaining
    · rw [if_pos hn] at h
      cases h
    · rw [if_neg hn] at h
      cases h
      exact absurd rfl he

theorem settled_expect (magic : Octets) : Settled (expect magic) :=
  (settled_take magic.length).bind fun found => by
    by_cases h : found = magic
    · rw [if_pos h]
      exact settled_pure ()
    · rw [if_neg h]
      exact settled_fail _

theorem settled_expectAll (words : List Octets) : Settled (expectAll words) := by
  induction words with
  | nil => exact settled_pure ()
  | cons w ws ih => exact (settled_expect w).bind fun _ => ih

theorem settled_number (width : Nat) : Settled (number width) :=
  (settled_take width).bind fun _ => settled_pure _

theorem settled_u16 : Settled u16 := (settled_number 2).bind fun _ => settled_pure _

theorem settled_u64 : Settled u64 := (settled_number 8).bind fun _ => settled_pure _

theorem settled_i64 : Settled i64 := settled_u64.bind fun _ => settled_pure _

theorem settled_token : Settled token :=
  (settled_take 16).bind fun b => by
    cases Token.ofOctets? b with
    | some t => exact settled_pure t
    | none => exact settled_fail _

/-! ## Texts and frames -/

theorem settled_counted : Settled counted :=
  (settled_number 4).bind fun size => by
    by_cases h : frameLimit < size
    · rw [if_pos h]
      exact settled_fail _
    · rw [if_neg h]
      exact settled_take size

theorem settled_checked (r : Except TextFault String) : Settled (checked r) := by
  cases r with
  | ok s => exact settled_give s
  | error fault => exact settled_fail _

theorem settled_utf16 : Settled utf16 := settled_counted.bind fun _ => settled_checked _

/-- **A frame is settled whatever is read in it**, for its content is all there or not there. -/
theorem settled_framed (r : Read α) : Settled (framed r) :=
  settled_counted.bind fun content => by
    cases (r.run (Cursor.start content)).1 with
    | ok a => exact settled_give a
    | error e => exact settled_fail e

theorem settled_announcement : Settled announcement :=
  settled_token.bind fun _ => settled_utf16.bind fun _ => settled_utf16.bind fun action =>
    settled_utf16.bind fun _ => settled_utf16.bind fun _ => settled_u16.bind fun _ => by
      cases Action.ofWire action with
      | ok a => exact settled_pure _
      | error e => exact settled_fail e

/-! ## Beginnings -/

/-- **In a proper beginning of the octets that a settled read takes, it finds too few octets.** -/
theorem Takes.truncated {r : Read α} {b t : Octets} {a : α} (ht : Takes r b a) (hs : Settled r)
    (hpre : t <+: b) (hne : t ≠ b) (p : Nat) : (run r ⟨p, t⟩).1 = .error .truncated := by
  obtain ⟨u, rfl⟩ := hpre
  have hu : u ≠ [] := by
    rintro rfl
    exact hne (List.append_nil t).symm
  have hall : run r (Cursor.extend ⟨p, t⟩ u) = (.ok a, ⟨p + (t ++ u).length, []⟩) := by
    have h := ht p []
    rwa [List.append_nil] at h
  generalize hrun : run r ⟨p, t⟩ = found at *
  obtain ⟨answer, c'⟩ := found
  cases answer with
  | ok v =>
    have h := hs.ok hrun u
    rw [hall] at h
    -- The cursor would have to stand in front of `u` and at the end of it.
    have hend : c'.ahead ++ u = [] := by
      have := congrArg (fun x => x.2.ahead) h
      exact this.symm
    exact absurd (List.append_eq_nil_iff.mp hend).2 hu
  | error e =>
    by_cases he : e = .truncated
    · rw [he]
    · have h := hs.error hrun he u
      rw [hall] at h
      cases h

end Read

end BoothLink
