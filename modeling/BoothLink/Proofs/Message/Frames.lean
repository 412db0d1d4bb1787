import BoothLink.Proofs.Message.Apart
import BoothLink.Proofs.Wire.RunsOut

/-!
# Frames that have arrived whole

A frame whose length is within the limit and whose content is all there is taken off as a whole; what
it is depends on its content alone. A beat frame is then a message or an error. In a state frame the
content may still end inside a field, which is found as too few octets, as if the frame had not arrived.

* `frameSize`, `frameContent`, `FrameArrived`: the frame at the front of octets.
* `MessageKind.EndsEarly`: content that ends before its fields do, by its kind.
* `MessageKind.decode_frame`: decoding a whole frame is reading its content.
* **`MessageKind.runsOut_content`**: the content runs out exactly if it ends early.
-/

namespace BoothLink

/-- The length that a frame at the front of octets declares. -/
def frameSize (b : Octets) : Nat := Octets.value (b.take 4)

/-- The content of a frame at the front of octets. -/
def frameContent (b : Octets) : Octets := (b.drop 4).take (frameSize b)

/-- A frame at the front of octets is short enough to be read and all there. -/
structure FrameArrived (b : Octets) : Prop where
  size_le : frameSize b ≤ frameLimit
  whole : 4 + frameSize b ≤ b.length

namespace FrameArrived

variable {b : Octets}

theorem length_content (h : FrameArrived b) : (frameContent b).length = frameSize b := by
  have := h.whole
  rw [frameContent, List.length_take, List.length_drop]
  omega

theorem append (h : FrameArrived b) (more : Octets) :
    FrameArrived (b ++ more) ∧ frameSize (b ++ more) = frameSize b ∧
      frameContent (b ++ more) = frameContent b := by
  have hwhole := h.whole
  have hsize : frameSize (b ++ more) = frameSize b := by
    rw [frameSize, frameSize, List.take_append_of_le_length (by omega)]
  refine ⟨⟨?_, ?_⟩, hsize, ?_⟩
  · rw [hsize]
    exact h.size_le
  · rw [hsize, List.length_append]
    omega
  · rw [frameContent, frameContent, hsize, List.drop_append_of_le_length (by omega),
      List.take_append_of_le_length (by rw [List.length_drop]; omega)]

/-- A frame is all there in as many octets as it takes. -/
theorem take (h : FrameArrived b) :
    FrameArrived (b.take (4 + frameSize b)) ∧
      frameSize (b.take (4 + frameSize b)) = frameSize b ∧
        frameContent (b.take (4 + frameSize b)) = frameContent b := by
  have hwhole := h.whole
  have hsize : frameSize (b.take (4 + frameSize b)) = frameSize b := by
    rw [frameSize, List.take_take, Nat.min_eq_left (by omega), frameSize]
  have htake : FrameArrived (b.take (4 + frameSize b)) := by
    refine ⟨?_, ?_⟩
    · rw [hsize]
      exact h.size_le
    · rw [hsize, List.length_take_of_le hwhole]
  have hsame := (htake.append (b.drop (4 + frameSize b))).2.2
  rw [List.take_append_drop] at hsame
  exact ⟨htake, hsize, hsame.symm⟩

theorem counted_eq (h : FrameArrived b) : Read.run Read.counted (Cursor.start b) =
    (.ok (frameContent b), ⟨4 + frameSize b, b.drop (4 + frameSize b)⟩) := by
  have hwhole := h.whole
  have hshort : ¬ (Cursor.start b).remaining < 4 := by
    show ¬ b.length < 4
    omega
  have hlim : ¬ frameLimit < Octets.value ((Cursor.start b).ahead.take 4) :=
    Nat.not_lt.mpr h.size_le
  have hcut : ¬ (Cursor.start b).remaining < 4 + Octets.value ((Cursor.start b).ahead.take 4) :=
    Nat.not_lt.mpr hwhole
  rw [Read.counted_run]
  simp only [if_neg hshort, if_neg hlim, if_neg hcut]
  rfl

end FrameArrived

namespace Read

theorem fixed_deck : Fixed deck deckWidth :=
  fixed_f64.bind fun _ => fixed_f64.bind fun _ => fixed_f64.bind_pure _

variable {α β : Type}

theorem fixed_times {r : Read α} {width : Nat} (hr : Fixed r width) (n : Nat) (done : List α) :
    Fixed (times r n done) (n * width) := by
  induction n generalizing done with
  | zero =>
    rw [Nat.zero_mul]
    exact fixed_pure _
  | succ n ih =>
    rw [Nat.succ_mul, Nat.add_comm (n * width)]
    exact hr.bind fun a => ih (a :: done)

/-- Records are read only if all of them are there, so they do not run out. -/
theorem not_runsOut_records {r : Read α} {n width : Nat} {done : List α} (hr : Fixed r width)
    {f : List α → Read β} (hf : ∀ as c, ¬ RunsOut (f as) c) (c : Cursor) :
    ¬ RunsOut (ensure n width >>= fun _ => times r n done >>= f) c := by
  intro h
  by_cases hn : c.remaining < n * width
  · have hens : run (ensure n width) c = (.error (.malformedBeat n c.remaining), c) := by
      rw [ensure_run, if_pos hn]
    rw [RunsOut, run_bind_error hens] at h
    cases h
  · have hens : run (ensure n width) c = (.ok (), c) := by
      rw [ensure_run, if_neg hn]
    obtain ⟨as, has⟩ := fixed_times hr n done c (Nat.not_lt.mp hn)
    rw [RunsOut, run_bind_ok hens, run_bind_ok has] at h
    exact hf as _ h

/-- **A sample whose clock and count are there does not run out**: its records are all there, or it is
malformed. -/
theorem not_runsOut_beatSample {c : Cursor} (h : 12 ≤ c.remaining) : ¬ RunsOut beatSample c := by
  obtain ⟨clock, hclock⟩ := fixed_u64 c (by omega)
  have hrest : 4 ≤ (Cursor.mk (c.position + 8) (c.ahead.drop 8)).remaining := by
    have hlen : c.ahead.length = c.remaining := rfl
    rw [Cursor.remaining_drop]
    omega
  obtain ⟨records, hrecords⟩ := fixed_u32 _ hrest
  intro hout
  rw [RunsOut, beatSample, run_bind_ok hclock, run_bind_ok hrecords] at hout
  refine not_runsOut_records fixed_deck ?_ _ hout
  intro decks c₁
  refine not_runsOut_records fixed_f64 ?_ c₁
  intro timelines c₂ hend
  cases hend

end Read

namespace MessageKind

open Read

/-- The content of a state frame ends inside its opening words, its path, or what comes behind its
path: a second text, or a number. The content of a beat frame never does. -/
def EndsEarly (k : MessageKind) (content : Octets) : Prop :=
  match k with
  | stateEmit =>
    content.length < 8 ∨ CutsCounted (content.drop 8) ∨
      ∃ rest, TextThen (content.drop 8) rest ∧ CutsCounted rest
  | stateEmitResponse | stateSubscribe =>
    content.length < 8 ∨ CutsCounted (content.drop 8) ∨
      ∃ rest, TextThen (content.drop 8) rest ∧ rest.length < 4
  | _ => False

/-- **Decoding a frame that has arrived whole is reading its content.** -/
theorem decode_frame {k : MessageKind} {b : Octets} (hframe : k.framing.isFrame = true)
    (h : FrameArrived b) : k.decode b =
      match (run k.bodyReader (Cursor.start (frameContent b))).1 with
      | .ok m => .ok (m, 4 + frameSize b)
      | .error e => .error e := by
  rw [decode, reader, if_pos hframe, framed, run_bind_ok h.counted_eq]
  cases (run k.bodyReader (Cursor.start (frameContent b))).1 with
  | ok m => rfl
  | error e => rfl

/-- Behind the opening words come the fields. -/
theorem run_bodyReader (k : MessageKind) (rest : Octets) :
    run k.bodyReader (Cursor.start (k.framing.opening.flatten ++ rest)) =
      run k.fieldsReader ⟨k.framing.opening.flatten.length, rest⟩ := by
  have hopen := takes_expectAll k.framing.opening 0 rest
  rw [Nat.zero_add] at hopen
  exact run_bind_ok hopen _

/-- What the content is read as, once its opening words are known. -/
theorem runsOut_bodyReader {k : MessageKind} {content : Octets}
    (h : content <+: k.framing.opening.flatten ∨ k.framing.opening.flatten <+: content) :
    RunsOut k.bodyReader (Cursor.start content) ↔
      content.length < k.framing.opening.flatten.length ∨
        RunsOut k.fieldsReader ⟨k.framing.opening.flatten.length,
          content.drop k.framing.opening.flatten.length⟩ := by
  have htakes := takes_expectAll k.framing.opening
  by_cases hlen : content.length < k.framing.opening.flatten.length
  · have hpre : content <+: k.framing.opening.flatten := by
      rcases h with h | h
      · exact h
      · exact absurd h.length_le (Nat.not_le.mpr hlen)
    have hne : content ≠ k.framing.opening.flatten := by
      intro heq
      rw [heq] at hlen
      omega
    have hout := htakes.truncated (settled_expectAll _) hpre hne 0
    rw [bodyReader, runsOut_bind]
    exact ⟨fun _ => .inl hlen, fun _ => .inl hout⟩
  · obtain ⟨rest, rfl⟩ : k.framing.opening.flatten <+: content := by
      rcases h with h | h
      · have heq := h.eq_of_length_le (Nat.not_lt.mp hlen)
        exact ⟨[], by rw [List.append_nil, heq]⟩
      · exact h
    rw [RunsOut, run_bodyReader, List.drop_left, RunsOut]
    constructor
    · intro hout
      exact .inr hout
    · rintro (hlt | hout)
      · exact absurd hlt hlen
      · exact hout

theorem content_opens {k : MessageKind} {b : Octets} (hframe : k.framing.isFrame = true)
    (hbegins : k.begins b = true) :
    frameContent b <+: k.framing.opening.flatten ∨ k.framing.opening.flatten <+: frameContent b := by
  have hwords := (begins_iff.mp hbegins).1
  rw [words, if_pos hframe] at hwords
  have hopen : k.framing.opening.flatten <+: b.drop 4 := by
    rw [← hwords]
    exact List.take_prefix _ _
  have hcontent : frameContent b <+: b.drop 4 := List.take_prefix _ _
  exact List.prefix_or_prefix_of_prefix hcontent hopen

/-- **The content of a frame runs out exactly if it ends early.** -/
theorem runsOut_content {k : MessageKind} {b : Octets} (hframe : k.framing.isFrame = true)
    (hbegins : k.begins b = true) (h : FrameArrived b) :
    RunsOut k.bodyReader (Cursor.start (frameContent b)) ↔ k.EndsEarly (frameContent b) := by
  have hlen := h.length_content
  have hfits := (begins_iff.mp hbegins).2 hframe
  have hwords := length_opening_frame hframe
  rw [runsOut_bodyReader (content_opens hframe hbegins)]
  cases k with
  | stateEmit =>
    have hbody : ∀ c, RunsOut (MessageKind.stateEmit).fieldsReader c ↔
        CutsCounted c.ahead ∨ ∃ rest, TextThen c.ahead rest ∧ CutsCounted rest := by
      intro c
      exact runsOut_utf16_bind fun s c => runsOut_bind_pure.trans runsOut_utf16
    exact or_congr Iff.rfl (hbody _)
  | stateEmitResponse | stateSubscribe =>
    have hbody : ∀ (f : String → UInt32 → Message) c,
        RunsOut (utf16 >>= fun path => u32 >>= fun n => pure (f path n)) c ↔
          CutsCounted c.ahead ∨ ∃ rest, TextThen c.ahead rest ∧ rest.length < 4 := by
      intro f c
      exact runsOut_utf16_bind fun s c => runsOut_bind_pure.trans runsOut_u32
    exact or_congr Iff.rfl (hbody _ _)
  | beatStartStream | beatStopStream =>
    have hsize : frameSize b = 4 := of_decide_eq_true hfits
    constructor
    · rintro (hlt | hout)
      · rw [hlen, hsize] at hlt
        exact absurd hlt (by decide)
      · cases hout
    · intro hnever
      cases hnever
  | beatEmit =>
    have hsize : 16 ≤ frameSize b := of_decide_eq_true hfits
    have hfour : (MessageKind.beatEmit).framing.opening.flatten.length = 4 := rfl
    constructor
    · rintro (hlt | hout)
      · omega
      · refine absurd (runsOut_bind_pure.mp hout) (not_runsOut_beatSample ?_)
        rw [Cursor.remaining_drop]
        omega
    · intro hnever
      cases hnever
  | serviceAnnouncement | reference | servicesRequest | discovery => cases hframe

/-- **Whether a frame that has arrived whole is found cut.** -/
theorem decode_truncated_iff {k : MessageKind} {b : Octets} (hframe : k.framing.isFrame = true)
    (hbegins : k.begins b = true) (h : FrameArrived b) :
    k.decode b = .error .truncated ↔ k.EndsEarly (frameContent b) := by
  rw [← runsOut_content hframe hbegins h, decode_frame hframe h, RunsOut]
  cases (run k.bodyReader (Cursor.start (frameContent b))).1 with
  | ok m => exact ⟨fun hd => (by cases hd), fun hd => (by cases hd)⟩
  | error e =>
    constructor
    · intro hd
      cases hd
      rfl
    · intro hd
      cases hd
      rfl

end MessageKind

end BoothLink
