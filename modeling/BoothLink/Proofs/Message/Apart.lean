import BoothLink.Proofs.Message.RoundTrip
import BoothLink.Proofs.Message.Settled

/-!
# What kinds are told apart by

A message begins with the words of its kind, which stand in a fixed place: at the very front, or behind
the length of a frame. So a look for one kind turns the messages of another down if other words belong
in the same place. A look for the announcement of a service, whose number is zero, also turns every
frame down, since the length in front of a frame is never zero.

* `MessageKind.apart`: a look for the first kind turns messages of the second down.
* `MessageKind.words`, `MessageKind.begins_iff`: where a look expects the words of a kind.
* `Message.encode_bare`, `Message.encode_frame`: the octets of a message with its words in front.
* **`Message.peek_encode`**, **`Message.peek_apart`**: what a look says of a message that was written.
* `Message.peek_beginning`: what it says of a part of it.
-/

namespace BoothLink

namespace MessageKind

/-- A look for the first kind turns messages of the second down: they begin with other words in the same
place, or they are frames, whose length is never the number zero of the first. -/
def apart (k k' : MessageKind) : Bool :=
  if k.framing.isFrame = k'.framing.isFrame then
    k.framing.lookahead = k'.framing.lookahead && k.framing.opening.flatten ≠ k'.framing.opening.flatten
  else !k.framing.isFrame && k.framing.opening.flatten = Octets.ofNat 4 0

theorem length_opening_frame {k : MessageKind} (h : k.framing.isFrame = true) :
    4 ≤ k.framing.opening.flatten.length ∧
      k.framing.opening.flatten.length = k.framing.lookahead - 4 := by
  cases k <;> first | exact ⟨by decide, rfl⟩ | cases h

theorem length_opening_bare {k : MessageKind} (h : k.framing.isFrame = false) :
    k.framing.opening.flatten.length = 4 ∧ k.framing.lookahead = 4 := by
  cases k <;> first | exact ⟨rfl, rfl⟩ | cases h

/-- The octets in which a look expects the words of a kind. -/
def words (k : MessageKind) (b : Octets) : Octets :=
  if k.framing.isFrame then (b.drop 4).take (k.framing.lookahead - 4) else b.take 4

/-- A kind begins with its words, and a frame of it has a fitting length. -/
theorem begins_iff {k : MessageKind} {b : Octets} : k.begins b = true ↔
    k.words b = k.framing.opening.flatten ∧
      (k.framing.isFrame = true → k.lengthFits (Octets.value (b.take 4)) = true) := by
  unfold begins words
  cases k.framing.isFrame <;> simp

/-- **The same place does not hold the words of two kinds.** -/
theorem not_begins_of_begins {k k' : MessageKind} {b : Octets} (h : k'.begins b = true)
    (hap : k.apart k' = true) (hsame : k.framing.isFrame = k'.framing.isFrame) :
    k.framing.lookahead = k'.framing.lookahead ∧ k.begins b = false := by
  rw [apart, if_pos hsame, Bool.and_eq_true, decide_eq_true_eq, decide_eq_true_eq] at hap
  obtain ⟨hlook, hopen⟩ := hap
  refine ⟨hlook, ?_⟩
  rw [Bool.eq_false_iff]
  intro hk
  have hplace : k.words b = k'.words b := by
    rw [words, words, hsame, hlook]
  apply hopen
  rw [← (begins_iff.mp hk).1, hplace, (begins_iff.mp h).1]

end MessageKind

namespace Message

/-! ## What messages begin with -/

/-- The content of a frame is as long as a look for its kind asks. -/
theorem lengthFits_body {m : Message} {b : Octets} (h : m.body = .ok b) :
    m.kind.lengthFits b.length = true := by
  obtain ⟨-, x, hx, rfl⟩ := body_inv h
  cases m with
  | beatStartStream | beatStopStream =>
    cases hx
    decide
  | beatEmit s =>
    obtain ⟨clock, _, hclock, hrest, rfl⟩ := Field.writeAll_cons_inv hx
    obtain ⟨count, _, hcount, -, rfl⟩ := Field.writeAll_cons_inv hrest
    cases hclock
    cases hcount
    have hopen := MessageKind.length_opening_frame (k := .beatEmit) rfl
    have hlook : (MessageKind.beatEmit).framing.lookahead = 8 := rfl
    simp only [MessageKind.lengthFits, kind, decide_eq_true_eq, List.length_append, hopen, hlook,
      Octets.length_ofNat]
    omega
  | _ => rfl

theorem encode_bare {m : Message} {b : Octets} (h : m.encode = .ok b)
    (hbare : m.kind.framing.isFrame = false) : ∃ x, b = m.kind.framing.opening.flatten ++ x := by
  obtain ⟨body, hbody, ⟨hframe, -⟩ | ⟨-, rfl⟩⟩ := encode_inv h
  · rw [hbare] at hframe
    cases hframe
  · obtain ⟨-, x, -, rfl⟩ := body_inv hbody
    exact ⟨x, rfl⟩

theorem encode_frame {m : Message} {b : Octets} (h : m.encode = .ok b)
    (hframe : m.kind.framing.isFrame = true) :
    ∃ body x, m.body = .ok body ∧ body.length ≤ frameLimit ∧ b = Octets.ofNat 4 body.length ++ body ∧
      body = m.kind.framing.opening.flatten ++ x := by
  obtain ⟨body, hbody, ⟨-, hlim, rfl⟩ | ⟨hbare, -⟩⟩ := encode_inv h
  · obtain ⟨-, x, -, rfl⟩ := body_inv hbody
    exact ⟨_, x, hbody, hlim, rfl, rfl⟩
  · rw [hframe] at hbare
    cases hbare

theorem value_length {n : Nat} (h : n ≤ frameLimit) : Octets.value (Octets.ofNat 4 n) = n := by
  unfold frameLimit at h
  rw [Octets.value_ofNat, Nat.mod_eq_of_lt (by omega)]

/-- The words of its kind stand in a message where a look expects them. -/
theorem words_encode {m : Message} {b : Octets} (h : m.encode = .ok b) :
    m.kind.framing.lookahead ≤ b.length ∧ m.kind.words b = m.kind.framing.opening.flatten := by
  unfold MessageKind.words
  cases hframe : m.kind.framing.isFrame with
  | false =>
    obtain ⟨x, rfl⟩ := encode_bare h hframe
    obtain ⟨hopen, hlook⟩ := MessageKind.length_opening_bare hframe
    rw [if_neg (by decide), List.take_left' hopen, List.length_append, hopen, hlook]
    exact ⟨by omega, rfl⟩
  | true =>
    obtain ⟨body, x, -, -, rfl, rfl⟩ := encode_frame h hframe
    obtain ⟨-, hopen⟩ := MessageKind.length_opening_frame hframe
    rw [if_pos rfl, List.drop_left' (Octets.length_ofNat _ _), List.take_left' hopen,
      List.length_append, List.length_append, hopen, Octets.length_ofNat]
    exact ⟨by omega, rfl⟩

/-- **A look for its own kind finds a message.** -/
theorem begins_encode {m : Message} {b : Octets} (h : m.encode = .ok b) :
    m.kind.begins b = true := by
  refine MessageKind.begins_iff.mpr ⟨(words_encode h).2, ?_⟩
  intro hframe
  obtain ⟨body, x, hbody, hlim, rfl, -⟩ := encode_frame h hframe
  rw [List.take_left' (Octets.length_ofNat _ _), value_length hlim]
  exact lengthFits_body hbody

/-- **A look for a kind apart turns a message down.** -/
theorem begins_apart {m : Message} {b : Octets} (h : m.encode = .ok b) {k : MessageKind}
    (hk : k.apart m.kind = true) : k.framing.lookahead ≤ b.length ∧ k.begins b = false := by
  by_cases hsame : k.framing.isFrame = m.kind.framing.isFrame
  · obtain ⟨hlook, hnot⟩ := MessageKind.not_begins_of_begins (begins_encode h) hk hsame
    exact ⟨hlook ▸ (words_encode h).1, hnot⟩
  · rw [MessageKind.apart, if_neg hsame, Bool.and_eq_true, decide_eq_true_eq, Bool.not_eq_true'] at hk
    obtain ⟨hbare, hzero⟩ := hk
    have hframe : m.kind.framing.isFrame = true := by
      cases hm : m.kind.framing.isFrame
      · exact absurd (hbare.trans hm.symm) hsame
      · rfl
    obtain ⟨body, x, -, hlim, rfl, rfl⟩ := encode_frame h hframe
    obtain ⟨hpos, -⟩ := MessageKind.length_opening_frame hframe
    obtain ⟨-, hlook⟩ := MessageKind.length_opening_bare hbare
    refine ⟨?_, ?_⟩
    · rw [hlook, List.length_append, Octets.length_ofNat]
      omega
    · rw [Bool.eq_false_iff]
      intro hbegins
      obtain ⟨hk, -⟩ := MessageKind.begins_iff.mp hbegins
      rw [MessageKind.words, if_neg (by simp [hbare]), List.take_left' (Octets.length_ofNat _ _),
        hzero] at hk
      -- The length in front of a frame would be zero.
      have hval := congrArg Octets.value hk
      rw [value_length hlim, value_length (Nat.zero_le _), List.length_append] at hval
      omega

theorem peek_encode {m : Message} {b : Octets} (h : m.encode = .ok b) (rest : Octets) :
    m.kind.peek (b ++ rest) = .matched := by
  have hlen := (words_encode h).1
  rw [MessageKind.peek_append hlen, MessageKind.peek_eq hlen, if_pos (begins_encode h)]

theorem peek_apart {m : Message} {b : Octets} (h : m.encode = .ok b) {k : MessageKind}
    (hk : k.apart m.kind = true) (rest : Octets) : k.peek (b ++ rest) = .mismatch := by
  obtain ⟨hlen, hbegins⟩ := begins_apart h hk
  rw [MessageKind.peek_append hlen, MessageKind.peek_eq hlen, hbegins]
  rfl

/-- What a look says of the beginning of octets: it asks for more, or says what it says of them all. -/
theorem peek_beginning {k : MessageKind} {t b : Octets} (h : t <+: b) :
    k.peek t = .needMore k.framing.lookahead ∨ k.peek t = k.peek b := by
  obtain ⟨u, rfl⟩ := h
  by_cases hlen : k.framing.lookahead ≤ t.length
  · exact .inr (MessageKind.peek_append hlen u).symm
  · exact .inl (MessageKind.peek_short (Nat.not_le.mp hlen))

end Message

end BoothLink
