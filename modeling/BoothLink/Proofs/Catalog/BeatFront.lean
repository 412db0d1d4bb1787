import BoothLink.Proofs.Catalog.Framed
import BoothLink.Proofs.Message.Canonical
import BoothLink.Proofs.Message.Written

/-!
# What stands in front on a beat connection

A beat frame is its length, a number, and for a sample the clock, the number of its decks, the decks and
the timelines. What decoding gives is told by the length, by the two numbers and by how many octets have
arrived. The number of decks is the sender's: it is held against what is left of the frame before the decks
are read and again before the timelines, so that neither is read in part.

* `Read.times_run`, `Read.records_run`: records that are all there are all read; `Read.records_cutDecks`
  and `Read.records_cutTimelines` for what is answered when they are not.
* `MessageKind.decode_beatEmit`: a frame of a sample is read like its records.
* `BeatFront`: what stands in front of some octets, and the answer to it.
* `Catalog.identify_beatInfo`: which kind is found.
* **`Catalog.decode_beatInfo_iff`**: decoding gives this answer and no other.
-/

namespace BoothLink

namespace Read

variable {α : Type} {r : Read α} {f : α → List Field} {width : Nat} {c : Cursor}

theorem u32_run (h : 4 ≤ c.remaining) : run u32 c =
    (.ok (UInt32.ofNat (Octets.wordAt c.ahead 0)), ⟨c.position + 4, c.ahead.drop 4⟩) := by
  rw [u32, run_bind, number_run, if_pos h]
  rfl

/-- **Records that are all there are all read.** -/
theorem times_run (hr : Fixed r width)
    (hs : ∀ {c a c'}, run r c = (.ok a, c') → c.Spells (f a) c') (n : Nat) (c : Cursor)
    (h : n * width ≤ c.remaining) : ∃ as, as.length = n ∧
      run (times r n []) c = (.ok as, ⟨c.position + n * width, c.ahead.drop (n * width)⟩) := by
  obtain ⟨as, has⟩ := fixed_times hr n [] c h
  obtain ⟨new, rfl, hlen, -⟩ := spells_times hs has
  exact ⟨_, hlen, has⟩

/-- Reads the records of a sample, so many decks and as many timelines. -/
def records (clock : UInt64) (n : Nat) : Read BeatSample := do
  ensure n deckWidth
  let decks ← times deck n []
  ensure n timelineWidth
  let timelines ← times f64 n []
  return ⟨clock, decks, timelines⟩

/-- Behind the clock and the number of decks come the records. -/
theorem beatSample_run (h : 12 ≤ c.remaining) : ∃ clock, run beatSample c =
    run (records clock (Octets.wordAt c.ahead 8)) ⟨c.position + 12, c.ahead.drop 12⟩ := by
  obtain ⟨clock, hclock⟩ := fixed_u64 c (by omega)
  have hrest : 4 ≤ (Cursor.mk (c.position + 8) (c.ahead.drop 8)).remaining := by
    have hlen : c.ahead.length = c.remaining := rfl
    rw [Cursor.remaining_drop]
    omega
  have hcount := u32_run hrest
  have hword : (UInt32.ofNat (Octets.wordAt (c.ahead.drop 8) 0)).toNat = Octets.wordAt c.ahead 8 := by
    rw [Octets.wordAt_drop, UInt32.toNat_ofNat_of_lt' (Octets.wordAt_lt c.ahead 8)]
  have hbehind : (c.ahead.drop 8).drop 4 = c.ahead.drop 12 := List.drop_drop
  refine ⟨clock, ?_⟩
  rw [beatSample, run_bind_ok hclock, run_bind_ok hcount, hword, hbehind]
  rfl

variable (clock : UInt64) {n : Nat}

theorem records_cutDecks (h : c.remaining < n * deckWidth) :
    (run (records clock n) c).1 = .error (.malformedBeat n c.remaining) := by
  rw [records, run_bind, ensure_run, if_pos h]

theorem records_decks (h : n * deckWidth ≤ c.remaining) : ∃ decks : List DeckBeat, decks.length = n ∧
    run (records clock n) c = run (ensure n timelineWidth >>= fun _ => times f64 n [] >>= fun timelines =>
      pure ⟨clock, decks, timelines⟩) ⟨c.position + n * deckWidth, c.ahead.drop (n * deckWidth)⟩ := by
  have hens : run (ensure n deckWidth) c = (.ok (), c) := by rw [ensure_run, if_neg (Nat.not_lt.mpr h)]
  obtain ⟨decks, hlen, hdecks⟩ := times_run fixed_deck spells_deck n c h
  refine ⟨decks, hlen, ?_⟩
  rw [records, run_bind_ok hens, run_bind_ok hdecks]

theorem records_cutTimelines (h : n * deckWidth ≤ c.remaining)
    (hcut : c.remaining - n * deckWidth < n * timelineWidth) :
    (run (records clock n) c).1 = .error (.malformedBeat n (c.remaining - n * deckWidth)) := by
  obtain ⟨decks, -, hrun⟩ := records_decks clock h
  have hleft : (Cursor.mk (c.position + n * deckWidth) (c.ahead.drop (n * deckWidth))).remaining =
      c.remaining - n * deckWidth := List.length_drop
  rw [hrun, run_bind, ensure_run, if_pos (by rwa [hleft]), hleft]

theorem records_run (h : n * deckWidth + n * timelineWidth ≤ c.remaining) :
    ∃ s, s.decks.length = n ∧ s.timelines.length = n ∧ (run (records clock n) c).1 = .ok s := by
  obtain ⟨decks, hdecks, hrun⟩ := records_decks (n := n) (c := c) clock (by omega)
  set c₁ : Cursor := ⟨c.position + n * deckWidth, c.ahead.drop (n * deckWidth)⟩
  have hleft : c₁.remaining = c.remaining - n * deckWidth := List.length_drop
  have hens : run (ensure n timelineWidth) c₁ = (.ok (), c₁) := by
    rw [ensure_run, if_neg (by omega)]
  obtain ⟨timelines, htimelines, hread⟩ :=
    times_run (f := fun x => [.f64 x]) fixed_f64 spells_f64 n c₁ (by simp only [timelineWidth] at *; omega)
  refine ⟨⟨clock, decks, timelines⟩, hdecks, htimelines, ?_⟩
  rw [hrun, run_bind_ok hens, run_bind_ok hread]
  rfl

end Read

/-! ## Frames -/

/-- A frame has room for records behind the number of its decks. -/
theorem FrameArrived.length_records {b : Octets} (h : FrameArrived b) (position : Nat) :
    (Cursor.mk position ((b.drop 20).take (frameSize b - 16))).remaining = frameSize b - 16 := by
  have hwhole := h.whole
  rw [Cursor.remaining, List.length_take, List.length_drop]
  omega

namespace MessageKind

variable {b : Octets}

/-- The length of a frame is held against the limit as soon as it is there. -/
theorem decode_frame_tooLarge {k : MessageKind} (hframe : k.framing.isFrame = true)
    (h : 4 ≤ b.length) (hlarge : frameLimit < frameSize b) :
    k.decode b = .error (.tooLarge (frameSize b) frameLimit) := by
  rw [decode_error_iff, reader, if_pos hframe, Read.framed, Read.run_bind,
    Read.counted_tooLarge (c := Cursor.start b) h hlarge]
  rfl

/-- A frame that has not arrived whole is cut. -/
theorem decode_frame_cut {k : MessageKind} (hframe : k.framing.isFrame = true)
    (hlim : frameSize b ≤ frameLimit) (hcut : b.length < 4 + frameSize b) :
    k.decode b = .error .truncated := by
  have hcuts : CutsCounted (Cursor.start b).ahead := .inr ⟨hlim, hcut⟩
  rw [decode_error_iff, reader, if_pos hframe]
  exact Read.runsOut_bind.mpr (.inl (Read.runsOut_counted.mpr hcuts))

/-- A frame of a sample is read like its records. -/
theorem decode_beatEmit (h : FrameArrived b) (hnumber : b.wordAt 4 = 2) (hsize : 16 ≤ frameSize b) :
    ∃ clock, MessageKind.beatEmit.decode b =
      match (Read.run (Read.records clock (b.wordAt 16)) ⟨16, (b.drop 20).take (frameSize b - 16)⟩).1 with
      | .ok s => .ok (.beatEmit s, 4 + frameSize b)
      | .error e => .error e := by
  have hwhole := h.whole
  have hword : (frameContent b).take 4 = Octets.ofNat 4 2 := by
    rw [frameContent, List.take_take, Nat.min_eq_left (by omega)]
    exact (Octets.take_drop_eq_ofNat_iff (by omega) (by decide)).mpr hnumber
  have hsplit : frameContent b = Octets.ofNat 4 2 ++ (frameContent b).drop 4 := by
    rw [← hword, List.take_append_drop]
  set c : Cursor := ⟨4, (frameContent b).drop 4⟩ with hc
  have hopen : Read.run MessageKind.beatEmit.bodyReader (Cursor.start (frameContent b)) =
      Read.run MessageKind.beatEmit.fieldsReader c := by
    rw [hsplit]
    exact run_bodyReader .beatEmit _
  have hleft : c.remaining = frameSize b - 4 := by
    rw [hc, Cursor.remaining_drop, h.length_content]
  obtain ⟨clock, hsample⟩ := Read.beatSample_run (c := c) (by omega)
  have hcount : Octets.wordAt c.ahead 8 = b.wordAt 16 := by
    rw [hc, Octets.wordAt_drop, frameContent, Octets.wordAt_take (by omega), Octets.wordAt_drop]
  have hbehind : c.ahead.drop 12 = (b.drop 20).take (frameSize b - 16) := by
    rw [hc, frameContent, List.drop_drop, List.drop_take, List.drop_drop]
  rw [hcount, hbehind] at hsample
  refine ⟨clock, ?_⟩
  have hposition : c.position + 12 = 16 := rfl
  rw [decode_frame rfl h, hopen, fieldsReader, Read.run_bind, hsample, hposition]
  generalize Read.run (Read.records clock (b.wordAt 16)) _ = found
  obtain ⟨answer, c'⟩ := found
  cases answer <;> rfl

end MessageKind

/-- What stands in front of octets on a beat connection, and the answer to it. -/
inductive BeatFront (b : Octets) : Except WireError (Option (Message × Nat)) → Prop
  /-- A length and a number have not arrived. -/
  | short (h : b.length < 8) : BeatFront b (.ok none)
  | startStream (h : 8 ≤ b.length) (hsize : frameSize b = 4) (hnumber : b.wordAt 4 = 0) :
      BeatFront b (.ok (some (.beatStartStream, 8)))
  | stopStream (h : 8 ≤ b.length) (hsize : frameSize b = 4) (hnumber : b.wordAt 4 = 1) :
      BeatFront b (.ok (some (.beatStopStream, 8)))
  /-- A sample in a frame that is too long. -/
  | tooLarge (h : 8 ≤ b.length) (hnumber : b.wordAt 4 = 2) (hlarge : frameLimit < frameSize b) :
      BeatFront b (.error (.tooLarge (frameSize b) frameLimit))
  /-- A sample in a frame that has not arrived whole. -/
  | waiting (h : 8 ≤ b.length) (hnumber : b.wordAt 4 = 2) (hsize : 16 ≤ frameSize b)
      (hlim : frameSize b ≤ frameLimit) (hcut : b.length < 4 + frameSize b) : BeatFront b (.ok none)
  /-- A sample with all its records, and whatever the frame holds behind them. -/
  | sample {s : BeatSample} (h : FrameArrived b) (hnumber : b.wordAt 4 = 2) (hsize : 16 ≤ frameSize b)
      (hroom : 32 * b.wordAt 16 ≤ frameSize b - 16) (hdecks : s.decks.length = b.wordAt 16)
      (htimelines : s.timelines.length = b.wordAt 16)
      (hbody : (Message.beatEmit s).body = .ok ((b.drop 4).take (16 + 32 * b.wordAt 16))) :
      BeatFront b (.ok (some (.beatEmit s, 4 + frameSize b)))
  /-- More decks than the frame has room for. -/
  | cutDecks (h : FrameArrived b) (hnumber : b.wordAt 4 = 2) (hsize : 16 ≤ frameSize b)
      (hcut : frameSize b - 16 < 24 * b.wordAt 16) :
      BeatFront b (.error (.malformedBeat (b.wordAt 16) (frameSize b - 16)))
  /-- Room for the decks, but not for the timelines behind them. -/
  | cutTimelines (h : FrameArrived b) (hnumber : b.wordAt 4 = 2) (hsize : 16 ≤ frameSize b)
      (hroom : 24 * b.wordAt 16 ≤ frameSize b - 16) (hcut : frameSize b - 16 < 32 * b.wordAt 16) :
      BeatFront b (.error (.malformedBeat (b.wordAt 16) (frameSize b - 16 - 24 * b.wordAt 16)))
  /-- Another number, or one whose frame does not have this length. -/
  | unknown (h : 8 ≤ b.length) (hstream : frameSize b = 4 → b.wordAt 4 ≠ 0 ∧ b.wordAt 4 ≠ 1)
      (hsample : 16 ≤ frameSize b → b.wordAt 4 ≠ 2) : BeatFront b (.error (.unknownMessage b))

namespace Catalog

variable {b : Octets} {a : Except WireError (Option (Message × Nat))}

/-- A look for a beat goes by the number and the length. -/
theorem peek_beat {k : MessageKind} (number : UInt32) (hk : k.framing = .beat number)
    (h : 8 ≤ b.length) : k.peek b =
      if b.wordAt 4 = number.toNat ∧ k.lengthFits (frameSize b) = true then .matched else .mismatch := by
  have hlook : k.framing.lookahead = 8 := by rw [hk]; rfl
  have hframe : k.framing.isFrame = true := by rw [hk]; rfl
  have hopen : k.framing.opening.flatten = Octets.ofNat 4 number.toNat := by
    simp [hk, Framing.opening, numberOctets]
  have hbegins : k.begins b = true ↔
      b.wordAt 4 = number.toNat ∧ k.lengthFits (frameSize b) = true := by
    rw [MessageKind.begins_iff, MessageKind.words, if_pos hframe, hlook, hopen,
      Octets.take_drop_eq_ofNat_iff h number.toNat_lt]
    exact and_congr Iff.rfl (imp_iff_right hframe)
  rw [MessageKind.peek_eq (hlook ▸ h)]
  simp only [hbegins]

/-- **Which kind is found on a beat connection.** -/
theorem identify_beatInfo (h : 8 ≤ b.length) : beatInfo.identify b =
    if b.wordAt 4 = 2 ∧ 16 ≤ frameSize b then .ok (some .beatEmit)
    else if b.wordAt 4 = 0 ∧ frameSize b = 4 then .ok (some .beatStartStream)
    else if b.wordAt 4 = 1 ∧ frameSize b = 4 then .ok (some .beatStopStream)
    else .error (.unknownMessage b) := by
  have hemit := peek_beat (k := .beatEmit) 2 rfl h
  have hstart := peek_beat (k := .beatStartStream) 0 rfl h
  have hstop := peek_beat (k := .beatStopStream) 1 rfl h
  simp only [MessageKind.lengthFits, decide_eq_true_eq, UInt32.reduceToNat] at hemit hstart hstop
  simp only [identify, beatInfo, identifyIn, hemit, hstart, hstop]
  split_ifs <;> rfl

theorem identify_sample (h : 8 ≤ b.length) (hnumber : b.wordAt 4 = 2) (hsize : 16 ≤ frameSize b) :
    beatInfo.identify b = .ok (some .beatEmit) := by
  rw [identify_beatInfo h, if_pos ⟨hnumber, hsize⟩]

/-- The content of a frame that holds a number alone. -/
theorem frameContent_number {n : Nat} (h : 8 ≤ b.length) (hn : n < 256 ^ 4) (hsize : frameSize b = 4)
    (hnumber : b.wordAt 4 = n) : FrameArrived b ∧ Octets.ofNat 4 n <+: frameContent b := by
  refine ⟨⟨by rw [hsize]; decide, by omega⟩, ?_⟩
  rw [frameContent, hsize, (Octets.take_drop_eq_ofNat_iff h hn).mpr hnumber]

/-- **What stands in front is answered so.** -/
theorem decode_of_beatFront (h : BeatFront b a) : beatInfo.decode b = a := by
  cases h with
  | short h =>
    have hpeek := MessageKind.peek_short (k := .beatEmit) h
    simp [decode, identify, beatInfo, identifyIn, hpeek]
  | startStream h hsize hnumber =>
    obtain ⟨harrived, hpre⟩ := frameContent_number h (by decide) hsize hnumber
    have hid : beatInfo.identify b = .ok (some .beatStartStream) := by
      simp [identify_beatInfo h, hsize, hnumber]
    rw [decode_of_body (m := .beatStartStream) hid rfl harrived rfl hpre, hsize]
  | stopStream h hsize hnumber =>
    obtain ⟨harrived, hpre⟩ := frameContent_number h (by decide) hsize hnumber
    have hid : beatInfo.identify b = .ok (some .beatStopStream) := by
      simp [identify_beatInfo h, hsize, hnumber]
    rw [decode_of_body (m := .beatStopStream) hid rfl harrived rfl hpre, hsize]
  | tooLarge h hnumber hlarge =>
    have hsize : 16 ≤ frameSize b := by simp only [frameLimit] at hlarge; omega
    rw [decode_of_identify (identify_sample h hnumber hsize),
      MessageKind.decode_frame_tooLarge rfl (by omega) hlarge]
  | waiting h hnumber hsize hlim hcut =>
    rw [decode_of_identify (identify_sample h hnumber hsize), MessageKind.decode_frame_cut rfl hlim hcut]
  | @sample s h hnumber hsize hroom hdecks htimelines hbody =>
    have hwhole := h.whole
    have hpre : (b.drop 4).take (16 + 32 * b.wordAt 16) <+: frameContent b := by
      rw [frameContent]
      exact List.take_prefix_take_left (by omega)
    exact decode_of_body (m := .beatEmit s) (identify_sample (by omega) hnumber hsize) rfl h hbody hpre
  | cutDecks h hnumber hsize hcut =>
    have hwhole := h.whole
    obtain ⟨clock, hread⟩ := MessageKind.decode_beatEmit h hnumber hsize
    rw [decode_of_identify (identify_sample (by omega) hnumber hsize), hread, Read.records_cutDecks]
    · rw [h.length_records]
    · rw [h.length_records, Read.deckWidth]
      omega
  | cutTimelines h hnumber hsize hroom hcut =>
    have hwhole := h.whole
    obtain ⟨clock, hread⟩ := MessageKind.decode_beatEmit h hnumber hsize
    rw [decode_of_identify (identify_sample (by omega) hnumber hsize), hread, Read.records_cutTimelines]
    · rw [h.length_records, Read.deckWidth, Nat.mul_comm]
    · rw [h.length_records, Read.deckWidth]
      omega
    · rw [h.length_records, Read.deckWidth, Read.timelineWidth]
      omega
  | unknown h hstream hsample =>
    have hid : beatInfo.identify b = .error (.unknownMessage b) := by
      rw [identify_beatInfo h, if_neg (by tauto), if_neg (by tauto), if_neg (by tauto)]
    simp [decode, hid]

/-- A sample stands in front whose records are all there. -/
theorem exists_sample (h : FrameArrived b) (hnumber : b.wordAt 4 = 2) (hsize : 16 ≤ frameSize b)
    (hroom : 32 * b.wordAt 16 ≤ frameSize b - 16) : ∃ s : BeatSample, s.decks.length = b.wordAt 16 ∧
      s.timelines.length = b.wordAt 16 ∧
        (Message.beatEmit s).body = .ok ((b.drop 4).take (16 + 32 * b.wordAt 16)) := by
  obtain ⟨clock, hread⟩ := MessageKind.decode_beatEmit h hnumber hsize
  have hfit : b.wordAt 16 * Read.deckWidth + b.wordAt 16 * Read.timelineWidth ≤
      (Cursor.mk 16 ((b.drop 20).take (frameSize b - 16))).remaining := by
    rw [h.length_records, Read.deckWidth, Read.timelineWidth]
    omega
  obtain ⟨s, hdecks, htimelines, hs⟩ := Read.records_run clock hfit
  rw [hs] at hread
  obtain ⟨-, -, -, -, body, hbody, hpre⟩ := MessageKind.frame_of_decode rfl hread
  have hlen : body.length = 16 + 32 * b.wordAt 16 := by
    have hcontent := (Message.body_ok hbody).2.2 (16 + 32 * s.decks.length) rfl
    rwa [hdecks] at hcontent
  refine ⟨s, hdecks, htimelines, ?_⟩
  rw [hbody, List.prefix_iff_eq_take.mp hpre, hlen, frameContent, List.take_take,
    Nat.min_eq_left (by omega)]

/-- **Something stands in front of all octets.** -/
theorem exists_beatFront (b : Octets) : ∃ a, BeatFront b a := by
  by_cases hshort : b.length < 8
  · exact ⟨_, .short hshort⟩
  have h : 8 ≤ b.length := Nat.not_lt.mp hshort
  by_cases hstart : frameSize b = 4 ∧ b.wordAt 4 = 0
  · exact ⟨_, .startStream h hstart.1 hstart.2⟩
  by_cases hstop : frameSize b = 4 ∧ b.wordAt 4 = 1
  · exact ⟨_, .stopStream h hstop.1 hstop.2⟩
  by_cases hsample : 16 ≤ frameSize b ∧ b.wordAt 4 = 2
  · obtain ⟨hsize, hnumber⟩ := hsample
    by_cases hlarge : frameLimit < frameSize b
    · exact ⟨_, .tooLarge h hnumber hlarge⟩
    have hlim : frameSize b ≤ frameLimit := Nat.not_lt.mp hlarge
    by_cases hcut : b.length < 4 + frameSize b
    · exact ⟨_, .waiting h hnumber hsize hlim hcut⟩
    have harrived : FrameArrived b := ⟨hlim, Nat.not_lt.mp hcut⟩
    by_cases hdecks : frameSize b - 16 < 24 * b.wordAt 16
    · exact ⟨_, .cutDecks harrived hnumber hsize hdecks⟩
    by_cases htimelines : frameSize b - 16 < 32 * b.wordAt 16
    · exact ⟨_, .cutTimelines harrived hnumber hsize (Nat.not_lt.mp hdecks) htimelines⟩
    have hroom : 32 * b.wordAt 16 ≤ frameSize b - 16 := Nat.not_lt.mp htimelines
    obtain ⟨s, hs, hs', hbody⟩ := exists_sample harrived hnumber hsize hroom
    exact ⟨_, .sample harrived hnumber hsize hroom hs hs' hbody⟩
  · exact ⟨_, .unknown h (by tauto) (by tauto)⟩

/-- **Decoding on a beat connection gives the answer to what stands in front, and no other.** The records
of a sample are read without fail once they are all there, and their extent, worked out in sixty-four
bits, is what it is for every number of records. -/
theorem decode_beatInfo_iff :
    (∀ b a, beatInfo.decode b = a ↔ BeatFront b a) ∧
      (∀ (n : Nat) (c : Cursor), n * Read.deckWidth ≤ c.remaining → ∃ decks, decks.length = n ∧
        Read.run (Read.times Read.deck n []) c =
          (.ok decks, ⟨c.position + n * Read.deckWidth, c.ahead.drop (n * Read.deckWidth)⟩)) ∧
      (∀ (n : Nat) (c : Cursor), n * Read.timelineWidth ≤ c.remaining → ∃ timelines,
        timelines.length = n ∧ Read.run (Read.times Read.f64 n []) c =
          (.ok timelines,
            ⟨c.position + n * Read.timelineWidth, c.ahead.drop (n * Read.timelineWidth)⟩)) ∧
      ∀ records : UInt32,
        (records.toUInt64 * UInt64.ofNat Read.deckWidth).toNat = records.toNat * Read.deckWidth ∧
          (records.toUInt64 * UInt64.ofNat Read.timelineWidth).toNat =
            records.toNat * Read.timelineWidth := by
  refine ⟨fun b a => ⟨fun h => ?_, decode_of_beatFront⟩, ?_, ?_, ?_⟩
  · obtain ⟨a', ha'⟩ := exists_beatFront b
    rwa [← h, decode_of_beatFront ha']
  · exact Read.times_run Read.fixed_deck Read.spells_deck
  · exact Read.times_run (f := fun x => [.f64 x]) Read.fixed_f64 Read.spells_f64
  · intro records
    have hlt := records.toNat_lt
    simp only [Read.deckWidth, Read.timelineWidth, UInt64.toNat_mul, UInt32.toNat_toUInt64,
      UInt64.reduceOfNat, UInt64.reduceToNat]
    omega

/-- A frame of a sample that announces as many decks as can be counted, and holds one. -/
def crowdedFrame : Octets :=
  [0, 0, 0, 40, 0, 0, 0, 2] ++ List.replicate 8 0 ++ [0xFF, 0xFF, 0xFF, 0xFF] ++ List.replicate 24 0

theorem decode_beatInfo_iff_crowded :
    BeatFront crowdedFrame (.error (.malformedBeat 4294967295 24)) := by
  have h : beatInfo.decode crowdedFrame = .error (.malformedBeat 4294967295 24) := rfl
  exact (decode_beatInfo_iff.1 _ _).mp h

end Catalog

end BoothLink
