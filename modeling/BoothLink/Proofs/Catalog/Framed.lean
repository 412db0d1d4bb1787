import BoothLink.Proofs.Catalog.Recovery
import BoothLink.Proofs.Message.Limits

/-!
# Catalogs of frames

On the connections of a service every message is a frame. Once the frame is all there its length says
where it ends, whatever its content is: the content may end too early, and then the frame is waited for
like one that has not arrived, or it may go on behind the message, and then what follows is passed over.
Either way the next message is looked for behind the frame and nowhere else.

* `Catalog.framed`: the catalogs of frames alone.
* `Catalog.decode_frame_none_iff`: when a whole frame is waited for.
* `Message.decode_of_body`: a whole frame is the message whose body its content begins with.
* `paddedFrame`: a frame with octets behind its message.
* **`Catalog.decode_padded_frame`**: they are passed over, and reading goes on behind the frame.
-/

namespace BoothLink

namespace Catalog

/-- The catalogs of frames alone. -/
def framed : List Catalog := [stateMap, beatInfo]

theorem framed_kinds : ∀ catalog ∈ framed, ∀ k ∈ catalog.kinds, k.framing.isFrame = true := by decide

theorem framed_clear : ∀ catalog ∈ framed, catalog.Clear := by decide

/-- A kind that is found by itself is found among others that are frames too. -/
theorem identifyIn_of_peek {ks : List MessageKind}
    (hclear : ks.Pairwise fun k k' => k.apart k' = true)
    (hframes : ∀ k ∈ ks, k.framing.isFrame = true) {k : MessageKind} (hk : k ∈ ks) {b : Octets}
    (hpeek : k.peek b = .matched) : identifyIn b ks = .ok (some k) := by
  induction ks with
  | nil => cases hk
  | cons k' ks ih =>
    obtain ⟨hhead, htail⟩ := List.pairwise_cons.mp hclear
    obtain ⟨hframe', hframes'⟩ := List.forall_mem_cons.mp hframes
    rw [identifyIn]
    by_cases hsame : k = k'
    · rw [← hsame, hpeek]
    · have hmem : k ∈ ks := (List.mem_cons.mp hk).resolve_left hsame
      obtain ⟨hlen, hbegins⟩ := MessageKind.peek_matched_iff.mp hpeek
      have hboth : k'.framing.isFrame = k.framing.isFrame := by
        rw [hframe', hframes' k hmem]
      obtain ⟨hlook, hnot⟩ := MessageKind.not_begins_of_begins hbegins (hhead k hmem) hboth
      have hmismatch : k'.peek b = .mismatch := by
        rw [MessageKind.peek_eq (hlook ▸ hlen), hnot]
        rfl
      rw [hmismatch]
      exact ih htail hframes' hmem

variable {catalog : Catalog} {k : MessageKind} {b : Octets}

theorem identify_of_peek (hcat : catalog ∈ framed) (hk : k ∈ catalog.kinds)
    (hpeek : k.peek b = .matched) : catalog.identify b = .ok (some k) :=
  identifyIn_of_peek (framed_clear catalog hcat) (framed_kinds catalog hcat) hk hpeek

/-- **A whole frame is waited for exactly if its content ends early.** -/
theorem decode_frame_none_iff (hcat : catalog ∈ framed) (hk : k ∈ catalog.kinds)
    (hpeek : k.peek b = .matched) (h : FrameArrived b) :
    catalog.decode b = .ok none ↔ k.EndsEarly (frameContent b) := by
  have hframe := framed_kinds catalog hcat k hk
  have hbegins := (MessageKind.peek_matched_iff.mp hpeek).2
  rw [← MessageKind.decode_truncated_iff hframe hbegins h,
    decode_of_identify (identify_of_peek hcat hk hpeek)]
  cases k.decode b with
  | ok found => exact ⟨fun hd => (by cases hd), fun hd => (by cases hd)⟩
  | error e => cases e <;> simp

theorem decode_frame_length (hcat : catalog ∈ framed) (hk : k ∈ catalog.kinds)
    (hpeek : k.peek b = .matched) (h : FrameArrived b) {m : Message} {n : Nat}
    (hd : catalog.decode b = .ok (some (m, n))) : n = 4 + frameSize b := by
  rw [decode_of_identify (identify_of_peek hcat hk hpeek),
    MessageKind.decode_frame (framed_kinds catalog hcat k hk) h] at hd
  generalize (k.bodyReader.run (Cursor.start (frameContent b))).1 = found at hd
  cases found with
  | ok m' =>
    cases hd
    rfl
  | error e => cases e <;> cases hd

/-- A frame whose content ends early is waited for whatever arrives behind it. -/
theorem decode_frame_append_none (hcat : catalog ∈ framed) (hk : k ∈ catalog.kinds)
    (hpeek : k.peek b = .matched) (h : FrameArrived b) (hearly : k.EndsEarly (frameContent b))
    (more : Octets) : catalog.decode (b ++ more) = .ok none := by
  obtain ⟨hmore, -, hcontent⟩ := h.append more
  have hlen := (MessageKind.peek_matched_iff.mp hpeek).1
  have hpeek' : k.peek (b ++ more) = .matched := by
    rw [MessageKind.peek_append hlen, hpeek]
  refine (decode_frame_none_iff hcat hk hpeek' hmore).mpr ?_
  rwa [hcontent]

end Catalog

/-! ## Octets behind a message in its frame -/

/-- **A whole frame is the message whose body its content begins with.** -/
theorem Message.decode_of_body {m : Message} {b body : Octets}
    (hframe : m.kind.framing.isFrame = true) (h : FrameArrived b) (hbody : m.body = .ok body)
    (hpre : body <+: frameContent b) : m.kind.decode b = .ok (m, 4 + frameSize b) := by
  obtain ⟨junk, hcontent⟩ := hpre
  obtain ⟨-, row, hrow, rfl⟩ := body_inv hbody
  have hlen := h.length_content
  have hlim := h.size_le
  have hfits : m.TextsFit := by
    refine Field.fits_of_writeAll hrow ?_
    simp only [← hcontent, List.length_append] at hlen
    omega
  rw [MessageKind.decode_frame hframe h, Cursor.start, ← hcontent, takes_bodyReader hbody hfits 0 junk]

/-- A kind that was found in front is the kind of the message that its frame begins with. -/
theorem Catalog.decode_of_body {catalog : Catalog} {m : Message} {b body : Octets}
    (hid : catalog.identify b = .ok (some m.kind)) (hframe : m.kind.framing.isFrame = true)
    (h : FrameArrived b) (hbody : m.body = .ok body) (hpre : body <+: frameContent b) :
    catalog.decode b = .ok (some (m, 4 + frameSize b)) := by
  rw [decode_of_identify hid, Message.decode_of_body hframe h hbody hpre]

/-- A frame that holds octets behind the body of its message. -/
def paddedFrame (body junk : Octets) : Octets :=
  Octets.ofNat 4 (body.length + junk.length) ++ (body ++ junk)

theorem paddedFrame_arrived {body junk : Octets} (hlim : body.length + junk.length ≤ frameLimit)
    (rest : Octets) :
    FrameArrived (paddedFrame body junk ++ rest) ∧
      frameSize (paddedFrame body junk ++ rest) = body.length + junk.length ∧
      frameContent (paddedFrame body junk ++ rest) = body ++ junk := by
  have hfour := Octets.length_ofNat 4 (body.length + junk.length)
  have hsize : frameSize (paddedFrame body junk ++ rest) = body.length + junk.length := by
    rw [frameSize, paddedFrame, List.append_assoc, List.take_left' hfour, Message.value_length hlim]
  have hwhole : 4 + frameSize (paddedFrame body junk ++ rest) ≤
      (paddedFrame body junk ++ rest).length := by
    rw [hsize]
    simp [paddedFrame]
  refine ⟨⟨hsize ▸ hlim, hwhole⟩, hsize, ?_⟩
  rw [frameContent, hsize, paddedFrame, List.append_assoc, List.drop_left' hfour,
    List.take_left' List.length_append]

namespace MessageKind

/-- The kinds whose frames may be longer than their message. The frames of the other two beat kinds have
one length, by which they are told. -/
def roomy : List MessageKind := [stateSubscribe, stateEmit, stateEmitResponse, beatEmit]

theorem isFrame_of_roomy : ∀ k ∈ roomy, k.framing.isFrame = true := by decide

theorem lengthFits_of_le {k : MessageKind} (hk : k ∈ roomy) {n n' : Nat} (h : k.lengthFits n = true)
    (hle : n ≤ n') : k.lengthFits n' = true := by
  simp only [roomy, List.mem_cons, List.not_mem_nil, or_false] at hk
  obtain rfl | rfl | rfl | rfl := hk
  · rfl
  · rfl
  · rfl
  · simp only [lengthFits, decide_eq_true_eq] at h ⊢
    omega

end MessageKind

/-- A longer frame is looked at like the frame of its message. -/
theorem Message.peek_padded {m : Message} {body junk : Octets} (hk : m.kind ∈ MessageKind.roomy)
    (hbody : m.body = .ok body) (hlim : body.length + junk.length ≤ frameLimit) (rest : Octets) :
    m.kind.peek (paddedFrame body junk ++ rest) = .matched := by
  have hframe := MessageKind.isFrame_of_roomy _ hk
  obtain ⟨-, hopen⟩ := MessageKind.length_opening_frame hframe
  obtain ⟨-, hsize, -⟩ := paddedFrame_arrived hlim rest
  have hfits := MessageKind.lengthFits_of_le hk (lengthFits_body hbody)
    (Nat.le_add_right body.length junk.length)
  obtain ⟨-, row, -, rfl⟩ := body_inv hbody
  refine MessageKind.peek_matched_iff.mpr ⟨?_, MessageKind.begins_iff.mpr ⟨?_, fun _ => ?_⟩⟩
  · simp only [paddedFrame, List.length_append, Octets.length_ofNat, hopen]
    omega
  · rw [MessageKind.words, if_pos hframe, paddedFrame, List.append_assoc,
      List.drop_left' (Octets.length_ofNat _ _), List.append_assoc, List.append_assoc,
      List.take_left' hopen]
  · rw [← frameSize, hsize]
    exact hfits

/-- The body of a message in a frame that was written. -/
theorem Message.body_of_frame {m : Message} {body : Octets} (hframe : m.kind.framing.isFrame = true)
    (h : m.encode = .ok (Octets.ofNat 4 body.length ++ body)) : m.body = .ok body := by
  obtain ⟨x, -, hx, -, heq, -⟩ := encode_frame h hframe
  have hsame := List.append_inj_right heq (by simp)
  rwa [hsame]

namespace Catalog

/-- **Octets behind a message in its frame are passed over**: the frame is that message and counts with
all its octets, and reading goes on with the first octet behind it. -/
theorem decode_padded_frame {catalog : Catalog} (hcat : catalog ∈ framed) {m : Message}
    (hm : m.kind ∈ catalog.kinds)
    (hk : m.kind ∈ [MessageKind.stateSubscribe, .stateEmit, .stateEmitResponse, .beatEmit])
    {body junk : Octets} (h : m.encode = .ok (Octets.ofNat 4 body.length ++ body))
    (hlim : body.length + junk.length ≤ frameLimit) (rest : Octets) :
    catalog.decode (paddedFrame body junk ++ rest) =
        .ok (some (m, 4 + body.length + junk.length)) ∧
      catalog.decodeAll (paddedFrame body junk ++ rest) =
        ((m, 4 + body.length + junk.length) :: (catalog.decodeAll rest).1,
          (catalog.decodeAll rest).2) := by
  have hframe := MessageKind.isFrame_of_roomy _ hk
  have hbody := Message.body_of_frame hframe h
  obtain ⟨harrived, hsize, hcontent⟩ := paddedFrame_arrived hlim rest
  have hid := identify_of_peek hcat hm (Message.peek_padded hk hbody hlim rest)
  have hpre : body <+: frameContent (paddedFrame body junk ++ rest) := ⟨junk, hcontent.symm⟩
  have hd : catalog.decode (paddedFrame body junk ++ rest) =
      .ok (some (m, 4 + body.length + junk.length)) := by
    rw [decode_of_body hid hframe harrived hbody hpre, hsize, ← Nat.add_assoc]
  have hlen : (paddedFrame body junk).length = 4 + body.length + junk.length := by
    simp [paddedFrame, Nat.add_assoc]
  refine ⟨hd, ?_⟩
  rw [decodeAll_of_some hd, List.drop_left' hlen]

/-- The content of the frame of a state, and a subscription in a frame. -/
def stateBody : Octets :=
  [0x73, 0x6D, 0x61, 0x61, 0, 0, 0, 0, 0, 0, 0, 2, 0, 0x2F, 0, 0, 0, 2, 0, 0x31]

def subscriptionFrame : Octets :=
  [0, 0, 0, 16, 0x73, 0x6D, 0x61, 0x61, 0, 0, 7, 0xD2, 0, 0, 0, 0, 0, 0, 0, 9]

/-- Three octets behind a state in its frame, and a subscription behind that. -/
theorem decode_padded_frame_state :
    (Message.stateEmit "/" "1").encode = .ok (Octets.ofNat 4 stateBody.length ++ stateBody) ∧
      stateMap.decodeAll (paddedFrame stateBody [0xDE, 0xAD, 0xBE] ++ subscriptionFrame) =
        ([(.stateEmit "/" "1", 27), (.stateSubscribe "" 9, 20)], .needMore, []) := by
  have hstate : (Message.stateEmit "/" "1").encode =
      .ok (Octets.ofNat 4 stateBody.length ++ stateBody) := rfl
  have hrest : stateMap.decodeAll subscriptionFrame =
      ([(.stateSubscribe "" 9, 20)], .needMore, []) := by
    rw [decodeAll_of_some (m := .stateSubscribe "" 9) (n := 20) rfl, decodeAll_of_none rfl]
    rfl
  have hcat : stateMap ∈ framed := by decide
  have hlim : stateBody.length + ([0xDE, 0xAD, 0xBE] : Octets).length ≤ frameLimit := by decide
  have h := (decode_padded_frame hcat (m := .stateEmit "/" "1") (by decide) (by decide) hstate hlim
    subscriptionFrame).2
  rw [hrest] at h
  exact ⟨hstate, h⟩

end Catalog

end BoothLink
