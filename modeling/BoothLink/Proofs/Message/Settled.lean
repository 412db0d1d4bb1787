import BoothLink.Proofs.Wire.Settled

/-!
# Kinds in growing octets

What a kind finds in the octets that have arrived, it finds among more: its reader is settled, and a
look is at the first octets alone.

* **`MessageKind.settled_reader`**: the reader of every kind is settled.
* `MessageKind.decode_append`: what was decoded stays decoded.
* `MessageKind.peek_eq`, `MessageKind.peek_short`, `MessageKind.peek_append`: what a look says, by the
  number of octets there are.
-/

namespace BoothLink

namespace MessageKind

open Read

/-- **The reader of every kind is settled.** -/
theorem settled_reader (k : MessageKind) : Settled k.reader := by
  cases k with
  | serviceAnnouncement =>
    exact (settled_expectAll _).bind fun _ => settled_token.bind fun _ =>
      settled_utf16.bind fun _ => settled_u16.bind fun _ => settled_pure _
  | reference =>
    exact (settled_expectAll _).bind fun _ => settled_token.bind fun _ =>
      settled_token.bind fun _ => settled_i64.bind fun _ => settled_pure _
  | servicesRequest =>
    exact (settled_expectAll _).bind fun _ => settled_token.bind fun _ => settled_pure _
  | discovery =>
    exact (settled_expectAll _).bind fun _ => settled_announcement.bind fun _ => settled_pure _
  | stateSubscribe | stateEmit | stateEmitResponse | beatStartStream | beatStopStream | beatEmit =>
    exact settled_framed _

/-- A kind that has found more than too few octets finds the same among more. -/
theorem decode_append {k : MessageKind} {b : Octets} (h : k.decode b ≠ .error .truncated)
    (more : Octets) : k.decode (b ++ more) = k.decode b := by
  unfold decode at *
  have hstart : Cursor.start (b ++ more) = (Cursor.start b).extend more := rfl
  rw [hstart]
  generalize hrun : k.reader.run (Cursor.start b) = found at *
  obtain ⟨answer, c⟩ := found
  cases answer with
  | ok m =>
    rw [k.settled_reader.ok hrun more]
    rfl
  | error e =>
    have he : e ≠ .truncated := by
      rintro rfl
      exact h rfl
    rw [k.settled_reader.error hrun he more]

/-! ## Looks -/

/-- What a look says about a kind, once there are octets enough for it. -/
theorem peek_eq {k : MessageKind} {b : Octets} (h : k.framing.lookahead ≤ b.length) :
    k.peek b = if k.begins b then .matched else .mismatch := by
  have hn : ¬ (b.take k.framing.lookahead).length < k.framing.lookahead := by
    rw [List.length_take]
    omega
  simp only [peek, if_neg hn]

theorem peek_short {k : MessageKind} {b : Octets} (h : b.length < k.framing.lookahead) :
    k.peek b = .needMore k.framing.lookahead := by
  have hn : (b.take k.framing.lookahead).length < k.framing.lookahead := by
    rw [List.length_take]
    omega
  simp only [peek, if_pos hn]

/-- A kind is found exactly if there are octets enough and it begins with them. -/
theorem peek_matched_iff {k : MessageKind} {b : Octets} :
    k.peek b = .matched ↔ k.framing.lookahead ≤ b.length ∧ k.begins b = true := by
  by_cases h : k.framing.lookahead ≤ b.length
  · rw [peek_eq h]
    cases k.begins b <;> simp [h]
  · rw [peek_short (Nat.not_le.mp h)]
    simp [h]

theorem four_le_lookahead (k : MessageKind) : 4 ≤ k.framing.lookahead := by
  cases k <;> decide

/-- A look is at the first octets alone. -/
theorem begins_append {k : MessageKind} {b : Octets} (h : k.framing.lookahead ≤ b.length)
    (more : Octets) : k.begins (b ++ more) = k.begins b := by
  have h4 := four_le_lookahead k
  have htake : (b ++ more).take 4 = b.take 4 := List.take_append_of_le_length (by omega)
  have hdrop : ((b ++ more).drop 4).take (k.framing.lookahead - 4) =
      (b.drop 4).take (k.framing.lookahead - 4) := by
    rw [List.drop_append_of_le_length (by omega),
      List.take_append_of_le_length (by rw [List.length_drop]; omega)]
  rw [begins, begins, htake, hdrop]

theorem peek_append {k : MessageKind} {b : Octets} (h : k.framing.lookahead ≤ b.length)
    (more : Octets) : k.peek (b ++ more) = k.peek b := by
  have hm : k.framing.lookahead ≤ (b ++ more).length := by
    rw [List.length_append]
    omega
  rw [peek_eq hm, peek_eq h, begins_append h]

end MessageKind

end BoothLink
