import BoothLink.Message.Decode

/-!
# Readers move forward

A successful read moves the cursor forward over octets that were there: what it passes and what stays
ahead are together what was ahead before. Every message takes at least four octets. This is what
makes reading a stream of messages end.

* `Read.Advances`: a read that passes at least so many octets when it succeeds.
* **`MessageKind.decode_consumes`**: a decoded message takes at least four octets and no more than
  there are.
-/

namespace BoothLink

namespace Read

variable {α β : Type}

/-- On success the read passes at least `n` octets and loses none. -/
def Advances (r : Read α) (n : Nat) : Prop :=
  ∀ c a c', run r c = (.ok a, c') →
    c.position + n ≤ c'.position ∧ c'.position + c'.remaining = c.position + c.remaining

theorem Advances.mono {r : Read α} {m n : Nat} (h : Advances r n) (hmn : m ≤ n) : Advances r m :=
  fun c a c' hr => ⟨by have := (h c a c' hr).1; omega, (h c a c' hr).2⟩

theorem advances_give (a : α) : Advances (give a) 0 := by
  intro c b c' h
  cases h
  exact ⟨Nat.le_refl _, rfl⟩

theorem advances_pure (a : α) : Advances (pure a : Read α) 0 := advances_give a

theorem advances_fail (e : WireError) (n : Nat) : Advances (fail e : Read α) n := by
  intro c b c' h
  cases h

theorem Advances.bind {r : Read α} {f : α → Read β} {m n : Nat} (hr : Advances r m)
    (hf : ∀ a, Advances (f a) n) : Advances (r >>= f) (m + n) := by
  intro c b c' h
  rw [run_bind] at h
  split at h
  · next a c₁ h₁ =>
    have h₂ := hr _ _ _ h₁
    have h₃ := hf a _ _ _ h
    exact ⟨by omega, by omega⟩
  · cases h

theorem advances_take (n : Nat) : Advances (take n) n := by
  intro c b c' h
  rw [take_run] at h
  split at h
  · next hn =>
    cases h
    simp only [Cursor.remaining, List.length_drop] at *
    exact ⟨Nat.le_refl _, by omega⟩
  · cases h

theorem advances_ahead : Advances ahead 0 := by
  intro c b c' h
  cases h
  exact ⟨Nat.le_refl _, rfl⟩

theorem advances_number (n : Nat) : Advances (number n) n :=
  (advances_take n).bind fun _ => advances_pure _

theorem advances_u16 : Advances u16 2 := (advances_number 2).bind fun _ => advances_pure _

theorem advances_u32 : Advances u32 4 := (advances_number 4).bind fun _ => advances_pure _

theorem advances_u64 : Advances u64 8 := (advances_number 8).bind fun _ => advances_pure _

theorem advances_i64 : Advances i64 8 := advances_u64.bind fun _ => advances_pure _

theorem advances_f64 : Advances f64 8 := advances_u64.bind fun _ => advances_pure _

theorem advances_token : Advances token 16 :=
  (advances_take 16).bind (n := 0) fun b => by
    split
    · exact advances_pure _
    · exact advances_fail _ _

theorem advances_counted : Advances counted 4 :=
  (advances_number 4).bind (n := 0) fun size => by
    split
    · exact advances_fail _ _
    · exact (advances_take size).mono (Nat.zero_le _)

theorem advances_checked (r : Except TextFault String) : Advances (checked r) 0 := by
  unfold checked
  split
  · exact advances_give _
  · exact advances_fail _ _

theorem advances_utf16 : Advances utf16 4 := advances_counted.bind fun _ => advances_checked _

theorem advances_expect (magic : Octets) : Advances (expect magic) magic.length :=
  (advances_take magic.length).bind (n := 0) fun found => by
    split
    · exact advances_pure _
    · exact advances_fail _ _

theorem advances_expectAll (words : List Octets) :
    Advances (expectAll words) words.flatten.length := by
  induction words with
  | nil => exact advances_pure _
  | cons w ws ih =>
    rw [List.flatten_cons, List.length_append]
    exact (advances_expect w).bind fun _ => ih

theorem advances_times {r : Read α} (h : Advances r 0) (n : Nat) (done : List α) :
    Advances (times r n done) 0 := by
  induction n generalizing done with
  | zero => exact advances_pure _
  | succ n ih => exact h.bind fun a => ih _

theorem advances_framed (r : Read α) : Advances (framed r) 4 :=
  advances_counted.bind (n := 0) fun content => by
    split
    · exact advances_give _
    · exact advances_fail _ _

theorem advances_ensure (records width : Nat) : Advances (ensure records width) 0 :=
  advances_ahead.bind (n := 0) fun _ => by
    dsimp only
    split
    · exact advances_fail _ _
    · exact advances_pure _

theorem advances_deck : Advances deck 24 :=
  advances_f64.bind fun _ => advances_f64.bind fun _ => advances_f64.bind fun _ => advances_pure _

theorem advances_beatSample : Advances beatSample 12 :=
  advances_u64.bind (n := 4) fun _ => advances_u32.bind (n := 0) fun _ =>
    (advances_ensure _ _).bind fun _ =>
      (advances_times (advances_deck.mono (Nat.zero_le _)) _ _).bind fun _ =>
        (advances_ensure _ _).bind fun _ =>
          (advances_times (advances_f64.mono (Nat.zero_le _)) _ _).bind fun _ => advances_pure _

theorem advances_announcement : Advances announcement 0 :=
  (advances_token.mono (Nat.zero_le _)).bind fun _ =>
    (advances_utf16.mono (Nat.zero_le _)).bind fun _ =>
      (advances_utf16.mono (Nat.zero_le _)).bind fun _ =>
        (advances_utf16.mono (Nat.zero_le _)).bind fun _ =>
          (advances_utf16.mono (Nat.zero_le _)).bind fun _ =>
            (advances_u16.mono (Nat.zero_le _)).bind (n := 0) fun _ => by
              split
              · exact advances_pure _
              · exact advances_fail _ _

end Read

namespace MessageKind

open Read

theorem advances_fieldsReader (k : MessageKind) : Advances k.fieldsReader 0 := by
  cases k with
  | serviceAnnouncement =>
    exact (advances_token.mono (Nat.zero_le _)).bind fun _ =>
      (advances_utf16.mono (Nat.zero_le _)).bind fun _ =>
        (advances_u16.mono (Nat.zero_le _)).bind fun _ => advances_pure _
  | reference =>
    exact (advances_token.mono (Nat.zero_le _)).bind fun _ =>
      (advances_token.mono (Nat.zero_le _)).bind fun _ =>
        (advances_i64.mono (Nat.zero_le _)).bind fun _ => advances_pure _
  | servicesRequest =>
    exact (advances_token.mono (Nat.zero_le _)).bind fun _ => advances_pure _
  | stateSubscribe | stateEmitResponse =>
    exact (advances_utf16.mono (Nat.zero_le _)).bind fun _ =>
      (advances_u32.mono (Nat.zero_le _)).bind fun _ => advances_pure _
  | stateEmit =>
    exact (advances_utf16.mono (Nat.zero_le _)).bind fun _ =>
      (advances_utf16.mono (Nat.zero_le _)).bind fun _ => advances_pure _
  | beatStartStream | beatStopStream => exact advances_pure _
  | beatEmit =>
    exact (advances_beatSample.mono (Nat.zero_le _)).bind fun _ => advances_pure _
  | discovery => exact advances_announcement.bind fun _ => advances_pure _

theorem advances_reader (k : MessageKind) : Advances k.reader 4 := by
  unfold reader
  split
  · exact advances_framed _
  · next h =>
    refine ((advances_expectAll _).bind fun _ => k.advances_fieldsReader).mono ?_
    cases k <;> simp [framing, Framing.isFrame] at h <;> decide

/-- **A decoded message takes at least four octets, and no more than there are.** -/
theorem decode_consumes {k : MessageKind} {b : Octets} {m : Message} {n : Nat}
    (h : k.decode b = .ok (m, n)) : 4 ≤ n ∧ n ≤ b.length := by
  unfold decode at h
  split at h
  · next c hc =>
    cases h
    have := k.advances_reader _ _ _ hc
    simp only [Cursor.start, Cursor.remaining] at this
    omega
  · cases h

end MessageKind

end BoothLink
