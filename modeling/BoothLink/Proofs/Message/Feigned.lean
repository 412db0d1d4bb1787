import BoothLink.Proofs.Message.Apart
import Mathlib.Data.List.Infix

/-!
# Messages taken for others

A look for a kind of frame passes over the length in front and compares what comes next. In a message
without a frame the token of its sender stands there, and whoever chooses the token chooses what the look
finds. A state frame is found wherever its words are. A beat frame is found only behind a length that it
can have, which the numbers of a main connection are not, but the magic word of an announcement is.
Nothing else is taken for what it is not: two frames have different words in the same place, and the
length of a frame is neither a number of a main connection nor the magic word.

* `Message.sender?`, `Message.encode_sender`: the token behind the word of a message without a frame.
* `MessageKind.disguises`, `Message.Feigns`: the kinds that a message is taken for.
* `Message.begins_frame_iff`, `Message.eq_of_begins_frame`, `Message.not_begins_bare`,
  `Message.eq_of_begins_bare`: what a look finds, by what has a frame.
* **`Message.peek_encode_iff`**: a look finds the messages of its kind and those taken for them.
* **`Message.not_only_own_kind`**: there are such messages.
-/

namespace BoothLink

namespace MessageKind

/-- The kinds of frames for which messages of a kind can be taken. -/
def disguises : MessageKind → List MessageKind
  | serviceAnnouncement | reference | servicesRequest =>
    [stateSubscribe, stateEmit, stateEmitResponse]
  | discovery => [stateSubscribe, stateEmit, stateEmitResponse, beatEmit]
  | _ => []

variable {k k' : MessageKind}

/-! ## The words of two kinds -/

theorem eq_of_opening (hsame : k.framing.isFrame = k'.framing.isFrame)
    (h : k.framing.opening.flatten = k'.framing.opening.flatten) : k = k' := by
  have hall : ∀ k ∈ all, ∀ k' ∈ all, k.framing.isFrame = k'.framing.isFrame →
      k.framing.opening.flatten = k'.framing.opening.flatten → k = k' := by decide
  exact hall k (mem_all k) k' (mem_all k') hsame h

/-- What frames of different schemes begin with differs in the first word already. -/
theorem length_opening_of_take (hk : k.framing.isFrame = true) (hk' : k'.framing.isFrame = true)
    (h : k.framing.opening.flatten.take 4 = k'.framing.opening.flatten.take 4) :
    k.framing.opening.flatten.length = k'.framing.opening.flatten.length := by
  have hall : ∀ k ∈ all, ∀ k' ∈ all, k.framing.isFrame = true → k'.framing.isFrame = true →
      k.framing.opening.flatten.take 4 = k'.framing.opening.flatten.take 4 →
        k.framing.opening.flatten.length = k'.framing.opening.flatten.length := by decide
  exact hall k (mem_all k) k' (mem_all k') hk hk' h

/-- **No frame begins with the words of another kind of frame.** -/
theorem eq_of_opening_prefix (hk : k.framing.isFrame = true) (hk' : k'.framing.isFrame = true)
    {x : Octets} (h : k.framing.opening.flatten <+: k'.framing.opening.flatten ++ x) : k = k' := by
  obtain ⟨y, hy⟩ := h
  have hfour := congrArg (List.take 4) hy
  rw [List.take_append_of_le_length (length_opening_frame hk).1,
    List.take_append_of_le_length (length_opening_frame hk').1] at hfour
  have hlen := length_opening_of_take hk hk' hfour
  exact eq_of_opening (hk.trans hk'.symm) (List.append_inj hy hlen).1

/-- The words of a kind without a frame are the length of no frame. -/
theorem value_opening_bare (hk : k.framing.isFrame = false) :
    Octets.value k.framing.opening.flatten < 4 ∨
      frameLimit < Octets.value k.framing.opening.flatten := by
  have hall : ∀ k ∈ all, k.framing.isFrame = false →
      Octets.value k.framing.opening.flatten < 4 ∨
        frameLimit < Octets.value k.framing.opening.flatten := by decide
  exact hall k (mem_all k) hk

theorem lengthFits_opening_iff (hk : k.framing.isFrame = true) (hk' : k'.framing.isFrame = false) :
    k.lengthFits (Octets.value k'.framing.opening.flatten) = true ↔ k ∈ k'.disguises := by
  have hall : ∀ k ∈ all, ∀ k' ∈ all, k.framing.isFrame = true → k'.framing.isFrame = false →
      (k.lengthFits (Octets.value k'.framing.opening.flatten) = true ↔ k ∈ k'.disguises) := by decide
  exact hall k (mem_all k) k' (mem_all k') hk hk'

theorem isFrame_of_mem_disguises (h : k ∈ k'.disguises) :
    k.framing.isFrame = true ∧ k'.framing.isFrame = false := by
  have hall : ∀ k' ∈ all, ∀ k ∈ k'.disguises,
      k.framing.isFrame = true ∧ k'.framing.isFrame = false := by decide
  exact hall k' (mem_all k') k h

/-- A look for a frame sees no more of a token than there is. -/
theorem length_opening_le (k : MessageKind) : k.framing.opening.flatten.length ≤ 8 := by
  have hall : ∀ k ∈ all, k.framing.opening.flatten.length ≤ 8 := by decide
  exact hall k (mem_all k)

end MessageKind

namespace Message

variable {m : Message} {b x : Octets} {k : MessageKind}

/-! ## Tokens -/

/-- The token of the sender, in a message without a frame. -/
def sender? : Message → Option Token
  | serviceAnnouncement token _ _ | reference token _ _ | servicesRequest token => some token
  | discovery announcement => some announcement.token
  | _ => none

theorem fields_sender (hbare : m.kind.framing.isFrame = false) :
    ∃ t fields, m.sender? = some t ∧ m.fields = .token t :: fields := by
  cases m with
  | serviceAnnouncement | reference | servicesRequest | discovery => exact ⟨_, _, rfl, rfl⟩
  | stateSubscribe | stateEmit | stateEmitResponse | beatStartStream | beatStopStream | beatEmit =>
    cases hbare

/-- **Behind the word of a message without a frame stands the token of its sender.** -/
theorem encode_sender (h : m.encode = .ok b) (hbare : m.kind.framing.isFrame = false) :
    ∃ t x, m.sender? = some t ∧ b = m.kind.framing.opening.flatten ++ (t.octets ++ x) := by
  obtain ⟨body, hbody, ⟨hframe, -⟩ | ⟨-, rfl⟩⟩ := encode_inv h
  · rw [hbare] at hframe
    cases hframe
  · obtain ⟨-, row, hrow, rfl⟩ := body_inv hbody
    obtain ⟨t, fields, hsender, hfields⟩ := fields_sender hbare
    rw [hfields] at hrow
    obtain ⟨_, x, htoken, -, rfl⟩ := Field.writeAll_cons_inv hrow
    cases htoken
    exact ⟨t, x, hsender, rfl⟩

/-- A message is taken for a kind of frame: it can be, and its token begins with the words of the kind. -/
def Feigns (m : Message) (k : MessageKind) : Prop :=
  k ∈ m.kind.disguises ∧ ∃ t, m.sender? = some t ∧ k.framing.opening.flatten <+: t.octets

/-! ## What a look finds -/

/-- A look for a frame finds it behind any four octets that are a fitting length. -/
theorem begins_frame_iff (hframe : k.framing.isFrame = true) {front : Octets}
    (hfront : front.length = 4) : k.begins (front ++ x) = true ↔
      k.framing.opening.flatten <+: x ∧ k.lengthFits (Octets.value front) = true := by
  obtain ⟨-, hlen⟩ := MessageKind.length_opening_frame hframe
  rw [MessageKind.begins_iff, MessageKind.words, if_pos hframe, List.drop_left' hfront,
    List.take_left' hfront, ← hlen, List.prefix_iff_eq_take, eq_comm, forall_prop_of_true hframe]

theorem eq_of_begins_frame (h : m.encode = .ok b) (hm : m.kind.framing.isFrame = true)
    (hk : k.framing.isFrame = true) (hbegins : k.begins (b ++ x) = true) : k = m.kind := by
  obtain ⟨body, rest, -, -, rfl, rfl⟩ := encode_frame h hm
  rw [List.append_assoc, begins_frame_iff hk (Octets.length_ofNat _ _), List.append_assoc] at hbegins
  exact MessageKind.eq_of_opening_prefix hk hm hbegins.1

/-- The length in front of a frame is not the word of a kind without one. -/
theorem not_begins_bare (h : m.encode = .ok b) (hm : m.kind.framing.isFrame = true)
    (hk : k.framing.isFrame = false) : ¬ k.begins (b ++ x) = true := by
  obtain ⟨body, rest, -, hlim, rfl, rfl⟩ := encode_frame h hm
  obtain ⟨hpos, -⟩ := MessageKind.length_opening_frame hm
  intro hbegins
  have hword := (MessageKind.begins_iff.mp hbegins).1
  rw [MessageKind.words, if_neg (by simp [hk]), List.append_assoc,
    List.take_left' (Octets.length_ofNat _ _)] at hword
  have hvalue := MessageKind.value_opening_bare hk
  rw [← hword, value_length hlim] at hvalue
  rw [List.length_append] at hvalue hlim
  omega

theorem eq_of_begins_bare (h : m.encode = .ok b) (hm : m.kind.framing.isFrame = false)
    (hk : k.framing.isFrame = false) (hbegins : k.begins (b ++ x) = true) : k = m.kind := by
  obtain ⟨rest, rfl⟩ := encode_bare h hm
  obtain ⟨hlen, -⟩ := MessageKind.length_opening_bare hm
  have hword := (MessageKind.begins_iff.mp hbegins).1
  rw [MessageKind.words, if_neg (by simp [hk]), List.append_assoc, List.take_left' hlen] at hword
  exact MessageKind.eq_of_opening (hk.trans hm.symm) hword.symm

/-- A message without a frame is taken for a frame by its token alone. -/
theorem begins_iff_feigns (h : m.encode = .ok b) (hm : m.kind.framing.isFrame = false)
    (hk : k.framing.isFrame = true) : k.begins (b ++ x) = true ↔ m.Feigns k := by
  obtain ⟨t, rest, hsender, rfl⟩ := encode_sender h hm
  have hshort : k.framing.opening.flatten.length ≤ t.octets.length := by
    rw [t.length_eq]
    exact (MessageKind.length_opening_le k).trans (by decide)
  rw [List.append_assoc, begins_frame_iff hk (MessageKind.length_opening_bare hm).1,
    MessageKind.lengthFits_opening_iff hk hm, List.append_assoc,
    List.isPrefix_append_of_length hshort, Feigns, hsender, and_comm]
  simp

/-- **A look finds the messages of its kind and those that are taken for them**, and no others, whatever
follows. -/
theorem peek_encode_iff {m : Message} {b : Octets} (h : m.encode = .ok b) (k : MessageKind)
    (rest : Octets) : k.peek (b ++ rest) = .matched ↔ k = m.kind ∨ m.Feigns k := by
  rw [MessageKind.peek_matched_iff]
  constructor
  · rintro ⟨-, hbegins⟩
    cases hm : m.kind.framing.isFrame with
    | true =>
      cases hk : k.framing.isFrame with
      | true => exact .inl (eq_of_begins_frame h hm hk hbegins)
      | false => exact absurd hbegins (not_begins_bare h hm hk)
    | false =>
      cases hk : k.framing.isFrame with
      | true => exact .inr ((begins_iff_feigns h hm hk).mp hbegins)
      | false => exact .inl (eq_of_begins_bare h hm hk hbegins)
  · rintro (rfl | hfeigns)
    · exact MessageKind.peek_matched_iff.mp (peek_encode h rest)
    · obtain ⟨hk, hm⟩ := MessageKind.isFrame_of_mem_disguises hfeigns.1
      refine ⟨?_, (begins_iff_feigns h hm hk).mpr hfeigns⟩
      obtain ⟨t, x, -, rfl⟩ := encode_sender h hm
      obtain ⟨hpos, hlook⟩ := MessageKind.length_opening_frame hk
      have hshort := k.length_opening_le
      have htoken := t.length_eq
      simp only [List.length_append]
      omega

/-- A token that begins like the content of a state. -/
def stateToken : Token := ⟨stateMagic ++ List.replicate 12 0, rfl⟩

/-- A token that begins like the content of a beat. -/
def beatToken : Token := ⟨[0, 0, 0, 2] ++ List.replicate 12 0, rfl⟩

/-- An announcement with such a token is taken for a beat, and a request with it is not. -/
theorem peek_encode_iff_beatToken : ∃ b c,
    (discovery ⟨beatToken, "a", .howdy, "b", "1", 1⟩).encode = .ok b ∧
    (servicesRequest beatToken).encode = .ok c ∧
      MessageKind.beatEmit.peek (b ++ []) = .matched ∧
        MessageKind.beatEmit.peek (c ++ []) ≠ .matched := by
  obtain ⟨b, hb⟩ : ∃ b, (discovery ⟨beatToken, "a", .howdy, "b", "1", 1⟩).encode = .ok b :=
    ⟨_, rfl⟩
  obtain ⟨c, hc⟩ : ∃ c, (servicesRequest beatToken).encode = .ok c := ⟨_, rfl⟩
  refine ⟨b, c, hb, hc, (peek_encode_iff hb .beatEmit []).mpr (.inr ?_), ?_⟩
  · exact ⟨by decide, beatToken, rfl, by decide⟩
  · rw [Ne, peek_encode_iff hc]
    rintro (hkind | ⟨hmem, -⟩)
    · cases hkind
    · exact absurd hmem (by decide)

/-- **A look may find messages of another kind**: a request whose sender has chosen its token for it is
found by a look for a state. -/
theorem not_only_own_kind : ¬ ∀ (m : Message) (b : Octets), m.encode = .ok b →
    ∀ k : MessageKind, k.peek b = .matched ↔ k = m.kind := by
  intro hall
  have hfound : MessageKind.stateEmit.peek ([0, 0, 0, 2] ++ stateToken.octets) = .matched := by decide
  have hkind := (hall (servicesRequest stateToken) _ rfl .stateEmit).mp hfound
  cases hkind

end Message

end BoothLink
