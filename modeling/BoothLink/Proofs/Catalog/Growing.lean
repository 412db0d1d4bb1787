import BoothLink.Catalog
import BoothLink.Proofs.Message.Settled

/-!
# Decoding a growing buffer

A buffer is decoded again and again while it grows. What was found in it stays found: once a message
or an error has come out, more octets behind give the same message with the same count, or the same
error, which for an unknown message shows the octets of the longer buffer. So the messages at the front
of a stream do not depend on how much of it has arrived.

* `WireError.bare`: an error without the octets that an unknown message shows.
* **`Catalog.decode_append`**: more octets do not change what was found.
* `Catalog.Yields`: some messages, one after the other, stand at the front of octets.
* `Yields.append`, `Yields.trans`, `Yields.eq_drop`: they stay there, with the rest behind them.
* **`Yields.decodeAll_eq`**: decoding everything finds them.
-/

namespace BoothLink

/-- The error without the octets that an unknown message shows. -/
def WireError.bare : WireError → WireError
  | unknownMessage _ => unknownMessage []
  | e => e

namespace Catalog

variable {catalog : Catalog}

/-! ## The first of several kinds -/

/-- Once the first of some kinds is told, or that none of them matches, it stays so. -/
theorem identifyIn_append {b : Octets} {ks : List MessageKind} (h : identifyIn b ks ≠ .ok none)
    (more : Octets) : identifyIn (b ++ more) ks =
      (identifyIn b ks).mapError fun _ => .unknownMessage (b ++ more) := by
  induction ks with
  | nil => rfl
  | cons k ks ih =>
    by_cases hlen : k.framing.lookahead ≤ b.length
    · rw [identifyIn] at h
      rw [identifyIn, identifyIn, MessageKind.peek_append hlen]
      cases hp : k.peek b with
      | matched => rfl
      | mismatch =>
        rw [hp] at h
        exact ih h
      | needMore n =>
        rw [hp] at h
        exact absurd rfl h
    · rw [identifyIn, MessageKind.peek_short (Nat.not_le.mp hlen)] at h
      exact absurd rfl h

theorem identifyIn_error {b : Octets} {ks : List MessageKind} {e : WireError}
    (h : identifyIn b ks = .error e) : e = .unknownMessage b := by
  induction ks with
  | nil =>
    cases h
    rfl
  | cons k ks ih =>
    rw [identifyIn] at h
    split at h
    · cases h
    · exact ih h
    · cases h

theorem identify_append_ok {b : Octets} {k : MessageKind} (h : catalog.identify b = .ok (some k))
    (more : Octets) : catalog.identify (b ++ more) = .ok (some k) := by
  have hsome : identifyIn b catalog.kinds = .ok (some k) := h
  have hne : identifyIn b catalog.kinds ≠ .ok none := by
    rw [hsome]
    intro hnone
    cases hnone
  rw [identify, identifyIn_append hne, hsome]
  rfl

theorem identify_append_error {b : Octets} {e : WireError} (h : catalog.identify b = .error e)
    (more : Octets) : catalog.identify (b ++ more) = .error (.unknownMessage (b ++ more)) := by
  have herror : identifyIn b catalog.kinds = .error e := h
  have hne : identifyIn b catalog.kinds ≠ .ok none := by
    rw [herror]
    intro hnone
    cases hnone
  rw [identify, identifyIn_append hne, herror]
  rfl

/-! ## The message at the front -/

/-- What a kind has found, for the one who waits for more octets. -/
theorem decode_of_identify {b : Octets} {k : MessageKind}
    (h : catalog.identify b = .ok (some k)) :
    catalog.decode b =
      match k.decode b with
      | .ok found => .ok (some found)
      | .error .truncated => .ok none
      | .error e => .error e := by
  unfold decode
  generalize catalog.identify b = found at h
  subst h
  rfl

/-- A message stays, and so does the number of its octets. -/
theorem decode_append_ok {b : Octets} {m : Message} {n : Nat}
    (h : catalog.decode b = .ok (some (m, n))) (more : Octets) :
    catalog.decode (b ++ more) = .ok (some (m, n)) := by
  cases hid : catalog.identify b with
  | error e =>
    rw [decode, hid] at h
    cases h
  | ok found =>
    cases found with
    | none =>
      rw [decode, hid] at h
      cases h
    | some k =>
      have hid' := identify_append_ok hid more
      have hdec : k.decode b ≠ .error .truncated := by
        intro ht
        rw [decode_of_identify hid, ht] at h
        cases h
      rw [decode_of_identify hid', MessageKind.decode_append hdec, ← decode_of_identify hid, h]

/-- An error stays, but an unknown message shows what has arrived since. -/
theorem decode_append_error {b : Octets} {e : WireError} (h : catalog.decode b = .error e)
    (more : Octets) : ∃ e', catalog.decode (b ++ more) = .error e' ∧ e'.bare = e.bare := by
  cases hid : catalog.identify b with
  | error e₁ =>
    have hdec' : catalog.decode (b ++ more) = .error (.unknownMessage (b ++ more)) := by
      rw [decode, identify_append_error hid more]
    have he := identifyIn_error hid
    rw [decode, hid] at h
    cases h
    rw [he]
    exact ⟨_, hdec', rfl⟩
  | ok found =>
    cases found with
    | none =>
      rw [decode, hid] at h
      cases h
    | some k =>
      have hid' := identify_append_ok hid more
      have hdec : k.decode b ≠ .error .truncated := by
        intro ht
        rw [decode_of_identify hid, ht] at h
        cases h
      rw [decode_of_identify hid] at h
      refine ⟨e, ?_, rfl⟩
      rw [decode_of_identify hid', MessageKind.decode_append hdec, h]

/-- **More octets do not change what was found.** -/
theorem decode_append {b : Octets} (h : catalog.decode b ≠ .ok none) (more : Octets) :
    (catalog.decode (b ++ more)).mapError WireError.bare =
      (catalog.decode b).mapError WireError.bare := by
  cases hd : catalog.decode b with
  | error e =>
    obtain ⟨e', he', hbare⟩ := decode_append_error hd more
    rw [he']
    exact congrArg Except.error hbare
  | ok found =>
    cases found with
    | none => exact absurd hd h
    | some x => rw [decode_append_ok hd more]

/-! ## Messages one after the other -/

/-- Decoding everything, by what stands in front. -/
theorem decodeAll_unfold (b : Octets) : catalog.decodeAll b =
    match catalog.decode b with
    | .error e => ([], .failed e, b)
    | .ok none => ([], .needMore, b)
    | .ok (some (m, n)) =>
      ((m, n) :: (catalog.decodeAll (b.drop n)).1, (catalog.decodeAll (b.drop n)).2) := by
  rw [decodeAll]
  split
  · next h => rw [h]
  · next h => rw [h]
  · next h => rw [h]

theorem decodeAll_of_none {b : Octets} (h : catalog.decode b = .ok none) :
    catalog.decodeAll b = ([], .needMore, b) := by
  rw [decodeAll_unfold, h]

theorem decodeAll_of_error {b : Octets} {e : WireError} (h : catalog.decode b = .error e) :
    catalog.decodeAll b = ([], .failed e, b) := by
  rw [decodeAll_unfold, h]

theorem decodeAll_of_some {b : Octets} {m : Message} {n : Nat}
    (h : catalog.decode b = .ok (some (m, n))) :
    catalog.decodeAll b =
      ((m, n) :: (catalog.decodeAll (b.drop n)).1, (catalog.decodeAll (b.drop n)).2) := by
  rw [decodeAll_unfold, h]

/-- At the front of octets stand these messages, each with the number of octets it takes, and then
come others. -/
inductive Yields (catalog : Catalog) : Octets → List (Message × Nat) → Octets → Prop where
  | done (b : Octets) : Yields catalog b [] b
  | step {b rest : Octets} {m : Message} {n : Nat} {ms : List (Message × Nat)} :
      catalog.decode b = .ok (some (m, n)) → Yields catalog (b.drop n) ms rest →
        Yields catalog b ((m, n) :: ms) rest

namespace Yields

/-- More octets behind leave the messages at the front alone. -/
theorem append {b rest : Octets} {ms : List (Message × Nat)} (h : Yields catalog b ms rest)
    (more : Octets) : Yields catalog (b ++ more) ms (rest ++ more) := by
  induction h with
  | done b => exact .done _
  | @step b rest m n ms hd _ ih =>
    have hn := (decode_consumes hd).2
    refine .step (decode_append_ok hd more) ?_
    rwa [List.drop_append_of_le_length hn]

theorem trans {b mid rest : Octets} {ms ms' : List (Message × Nat)}
    (h : Yields catalog b ms mid) (h' : Yields catalog mid ms' rest) :
    Yields catalog b (ms ++ ms') rest := by
  induction h with
  | done b => exact h'
  | step hd _ ih => exact .step hd (ih h')

/-- **What is left is what comes behind the octets that were taken.** -/
theorem eq_drop {b rest : Octets} {ms : List (Message × Nat)} (h : Yields catalog b ms rest) :
    (ms.map (·.2)).sum ≤ b.length ∧ rest = b.drop (ms.map (·.2)).sum := by
  induction h with
  | done b => exact ⟨Nat.zero_le _, rfl⟩
  | @step b rest m n ms hd _ ih =>
    obtain ⟨hle, hrest⟩ := ih
    have hn := (decode_consumes hd).2
    rw [List.length_drop] at hle
    rw [List.map_cons, List.sum_cons]
    refine ⟨by omega, ?_⟩
    rw [hrest, List.drop_drop]

/-- **Decoding everything finds the messages first**, and goes on with what is left. -/
theorem decodeAll_eq {b rest : Octets} {ms : List (Message × Nat)}
    (h : Yields catalog b ms rest) :
    catalog.decodeAll b = (ms ++ (catalog.decodeAll rest).1, (catalog.decodeAll rest).2) := by
  induction h with
  | done b => rfl
  | step hd _ ih => rw [decodeAll_of_some hd, ih, List.cons_append]

end Yields

end Catalog

end BoothLink
