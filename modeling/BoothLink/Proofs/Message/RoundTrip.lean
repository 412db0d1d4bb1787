import BoothLink.Message.Decode
import BoothLink.Proofs.Wire.RoundTrip

/-!
# Messages read back

The reader of each kind takes exactly the octets that a message of that kind was written as, be it set
off by a magic word, by its number alone or by the length of a frame. So reading gives the message and
stops right behind it, whatever octets follow.

* `Read.takes_framed`: a frame is taken with whatever it holds behind its message.
* `Read.takes_times`: values one after the other, each by the same read.
* `Message.TextsFit`: the texts of a message are short enough to be read.
* `Message.body_inv`, `Message.encode_inv`: the octets of a message, part by part.
* **`Message.takes_reader`**, **`Message.decode_encode_append`**: what was written is read back.
-/

namespace BoothLink

namespace Read

variable {α : Type}

theorem takes_expectAll (words : List Octets) : Takes (expectAll words) words.flatten () := by
  induction words with
  | nil => exact takes_pure ()
  | cons w ws ih => exact (takes_expect w).bind ih

/-- **A frame is taken whole**, with the octets that it holds behind its message. -/
theorem takes_framed {r : Read α} {body : Octets} {a : α} (h : Takes r body a) (junk : Octets)
    (hl : (body ++ junk).length ≤ frameLimit) :
    Takes (framed r) (Octets.ofNat 4 (body ++ junk).length ++ (body ++ junk)) a := by
  have hin : (r.run (Cursor.start (body ++ junk))).1 = .ok a := by
    rw [Cursor.start, h 0 junk]
  refine (takes_counted hl).bind_nil ?_
  rw [hin]
  exact takes_give a

/-! ## Samples -/

/-- Records are looked for without reading them. -/
theorem ensure_run (records width : Nat) (c : Cursor) :
    run (Read.ensure records width) c =
      if c.remaining < records * width then (.error (.malformedBeat records c.remaining), c)
      else (.ok (), c) := by
  show run (if c.remaining < records * width then
    fail (.malformedBeat records c.remaining) else pure ()) c = _
  by_cases h : c.remaining < records * width
  · rw [if_pos h, if_pos h, run_fail]
  · rw [if_neg h, if_neg h, run_pure]

/-- Records that are all there are no obstacle. -/
theorem Takes.ensure {r : Read α} {b : Octets} {a : α} (h : Takes r b a) (records width : Nat)
    (hb : records * width ≤ b.length) : Takes (Read.ensure records width >>= fun _ => r) b a := by
  intro p rest
  have hlen : ¬ (Cursor.mk p (b ++ rest)).remaining < records * width := by
    rw [Cursor.remaining, List.length_append]
    omega
  have hens : run (Read.ensure records width) ⟨p, b ++ rest⟩ = (.ok (), ⟨p, b ++ rest⟩) := by
    rw [ensure_run, if_neg hlen]
  rw [run_bind_ok hens, h]

/-- **Values one after the other are taken by as many reads.** -/
theorem takes_times {r : Read α} {fields : α → List Field}
    (hr : ∀ a b, Field.writeAll (fields a) = .ok b → Takes r b a) (as done : List α) {b : Octets}
    (h : Field.writeAll (as.flatMap fields) = .ok b) :
    Takes (times r as.length done) b (done.reverse ++ as) := by
  induction as generalizing done b with
  | nil =>
    cases h
    rw [List.append_nil]
    exact takes_pure _
  | cons a as ih =>
    rw [List.flatMap_cons] at h
    obtain ⟨x, y, hx, hy, rfl⟩ := Field.writeAll_append_inv h
    have hrest := ih (a :: done) hy
    rw [List.reverse_cons, List.append_assoc, List.singleton_append] at hrest
    exact (hr a x hx).bind hrest

theorem length_writeAll_flatMap {fields : α → List Field} {width : Nat}
    (hw : ∀ a b, Field.writeAll (fields a) = .ok b → b.length = width) {as : List α} {b : Octets}
    (h : Field.writeAll (as.flatMap fields) = .ok b) : b.length = as.length * width := by
  induction as generalizing b with
  | nil =>
    cases h
    simp
  | cons a as ih =>
    rw [List.flatMap_cons] at h
    obtain ⟨x, y, hx, hy, rfl⟩ := Field.writeAll_append_inv h
    rw [List.length_append, hw a x hx, ih hy, List.length_cons, Nat.succ_mul, Nat.add_comm]

theorem writeAll_deck (d : DeckBeat) : Field.writeAll d.fields =
    .ok (Octets.ofNat 8 d.beat.bits.toNat ++ (Octets.ofNat 8 d.totalBeats.bits.toNat ++
      (Octets.ofNat 8 d.bpm.bits.toNat ++ []))) := rfl

theorem writeAll_timeline (x : Binary64) :
    Field.writeAll [.f64 x] = .ok (Octets.ofNat 8 x.bits.toNat ++ []) := rfl

theorem takes_deck (d : DeckBeat) (b : Octets) (h : Field.writeAll d.fields = .ok b) :
    Takes deck b d := by
  rw [writeAll_deck] at h
  cases h
  exact (takes_f64 _).bind ((takes_f64 _).bind ((takes_f64 _).bind (takes_pure d)))

theorem takes_timeline (x : Binary64) (b : Octets) (h : Field.writeAll [.f64 x] = .ok b) :
    Takes f64 b x := by
  rw [writeAll_timeline] at h
  cases h
  rw [List.append_nil]
  exact takes_f64 x

theorem length_writeAll_deck (d : DeckBeat) (b : Octets) (h : Field.writeAll d.fields = .ok b) :
    b.length = deckWidth := by
  rw [writeAll_deck] at h
  cases h
  simp [deckWidth]

theorem length_writeAll_timeline (x : Binary64) (b : Octets)
    (h : Field.writeAll [.f64 x] = .ok b) : b.length = timelineWidth := by
  rw [writeAll_timeline] at h
  cases h
  simp [timelineWidth]

/-- **A sample with a timeline for each deck is read back.** -/
theorem takes_beatSample {s : BeatSample} {b : Octets} (h : Field.writeAll s.fields = .ok b)
    (hlen : s.decks.length = s.timelines.length) (hlim : s.decks.length ≤ lengthLimit) :
    Takes beatSample b s := by
  have hcount : (UInt32.ofNat s.decks.length).toNat = s.decks.length := by
    unfold lengthLimit at hlim
    rw [UInt32.toNat_ofNat']
    omega
  obtain ⟨clock, _, hclock, hrest, rfl⟩ := Field.writeAll_cons_inv h
  obtain ⟨count, _, hcountw, hrecords, rfl⟩ := Field.writeAll_cons_inv hrest
  obtain ⟨decks, timelines, hdecks, htimes, rfl⟩ := Field.writeAll_append_inv hrecords
  rw [List.map_eq_flatMap] at htimes
  cases hclock
  cases hcountw
  have hd := length_writeAll_flatMap length_writeAll_deck hdecks
  have ht := length_writeAll_flatMap length_writeAll_timeline htimes
  have takeDecks := takes_times takes_deck s.decks [] hdecks
  have takeTimelines := takes_times takes_timeline s.timelines [] htimes
  rw [← hlen] at takeTimelines
  -- The records are counted once and checked twice, before the decks and before the timelines.
  refine (takes_u64 s.clock).bind ((takes_u32 _).bind ?_)
  rw [hcount]
  have htail := (takeTimelines.bind_pure (BeatSample.mk s.clock s.decks)).ensure s.decks.length
    timelineWidth (Nat.le_of_eq (by rw [ht, hlen]))
  refine (takeDecks.bind htail).ensure s.decks.length deckWidth ?_
  rw [List.length_append, hd]
  omega

/-! ## Announcements -/

theorem ofWire_wireText (a : Action) : Action.ofWire a.wireText = .ok a := by
  cases a with
  | howdy => exact if_pos rfl
  | exit => rw [Action.ofWire, if_neg (by decide), if_pos rfl]

theorem takes_announcement {a : Announcement} {b : Octets}
    (h : Field.writeAll a.fields = .ok b) (hf : ∀ f ∈ a.fields, f.Fits) :
    Takes announcement b a := by
  have fits : ∀ s, Field.utf16 s ∈ a.fields → (Utf16.encode s.toList).length ≤ frameLimit :=
    fun s hs => hf _ hs
  obtain ⟨token, _, htoken, h₁, rfl⟩ := Field.writeAll_cons_inv h
  obtain ⟨source, _, hsource, h₂, rfl⟩ := Field.writeAll_cons_inv h₁
  obtain ⟨action, _, haction, h₃, rfl⟩ := Field.writeAll_cons_inv h₂
  obtain ⟨name, _, hname, h₄, rfl⟩ := Field.writeAll_cons_inv h₃
  obtain ⟨version, _, hversion, h₅, rfl⟩ := Field.writeAll_cons_inv h₄
  obtain ⟨port, _, hport, h₆, rfl⟩ := Field.writeAll_cons_inv h₅
  cases htoken
  cases hport
  cases h₆
  refine (takes_token _).bind ((takes_utf16 hsource (fits _ ?_)).bind
    ((takes_utf16 haction (fits _ ?_)).bind ((takes_utf16 hname (fits _ ?_)).bind
      ((takes_utf16 hversion (fits _ ?_)).bind ((takes_u16 _).bind ?_)))))
  -- The action is looked at last, when its text is that of an action.
  case refine_5 =>
    rw [ofWire_wireText]
    exact takes_pure a
  all_goals simp [Announcement.fields]

end Read

/-- Decoding fails as its reader does. -/
theorem MessageKind.decode_error_iff {k : MessageKind} {b : Octets} {e : WireError} :
    k.decode b = .error e ↔ (k.reader.run (Cursor.start b)).1 = .error e := by
  rw [decode]
  generalize k.reader.run (Cursor.start b) = found
  obtain ⟨answer, c⟩ := found
  cases answer <;> simp

namespace Message

/-! ## The octets of a message -/

/-- The texts of a message are short enough to be read. -/
def TextsFit (m : Message) : Prop := ∀ f ∈ m.fields, f.Fits

instance (m : Message) : Decidable m.TextsFit :=
  inferInstanceAs (Decidable (∀ f ∈ m.fields, f.Fits))

theorem TextsFit.utf16 {m : Message} {s : String} (hf : m.TextsFit) (hs : .utf16 s ∈ m.fields) :
    (Utf16.encode s.toList).length ≤ frameLimit := hf _ hs

theorem body_inv {m : Message} {b : Octets} (h : m.body = .ok b) :
    m.countsFit = .ok () ∧
      ∃ x, Field.writeAll m.fields = .ok x ∧ b = m.kind.framing.opening.flatten ++ x := by
  rw [body] at h
  split at h
  · cases h
  · next hc =>
    generalize hw : Field.writeAll m.fields = w at h
    cases w with
    | error e => cases h
    | ok x =>
      cases h
      exact ⟨hc, x, rfl, rfl⟩

/-- A message that can be written has a body, which its frame limits if it has one. -/
theorem encode_inv {m : Message} {b : Octets} (h : m.encode = .ok b) :
    ∃ x, m.body = .ok x ∧
      ((m.kind.framing.isFrame = true ∧ x.length ≤ frameLimit ∧ b = Octets.ofNat 4 x.length ++ x) ∨
        (m.kind.framing.isFrame = false ∧ b = x)) := by
  rw [encode] at h
  split at h
  · cases h
  · next x hx =>
    refine ⟨x, hx, ?_⟩
    by_cases hframe : m.kind.framing.isFrame = true
    · rw [if_pos hframe, frame] at h
      split at h
      · cases h
      · next hlim =>
        cases h
        exact .inl ⟨hframe, Nat.not_lt.mp hlim, rfl⟩
    · rw [if_neg hframe] at h
      cases h
      exact .inr ⟨Bool.eq_false_iff.mpr hframe, rfl⟩

theorem countsFit_beatEmit {s : BeatSample} (h : countsFit (.beatEmit s) = .ok ()) :
    s.decks.length = s.timelines.length ∧ s.decks.length ≤ lengthLimit := by
  rw [countsFit] at h
  split at h
  · cases h
  · next hlen =>
    split at h
    · cases h
    · next hlim => exact ⟨Decidable.not_not.mp hlen, Nat.not_lt.mp hlim⟩

/-! ## Reading it back -/

/-- **The fields of each kind are read back.** -/
theorem takes_fieldsReader {m : Message} {b : Octets} (h : Field.writeAll m.fields = .ok b)
    (hc : m.countsFit = .ok ()) (hf : m.TextsFit) : Read.Takes m.kind.fieldsReader b m := by
  cases m with
  | serviceAnnouncement token service port =>
    obtain ⟨x, _, hx, h₁, rfl⟩ := Field.writeAll_cons_inv h
    obtain ⟨y, _, hy, h₂, rfl⟩ := Field.writeAll_cons_inv h₁
    obtain ⟨z, _, hz, h₃, rfl⟩ := Field.writeAll_cons_inv h₂
    cases hx
    cases hz
    cases h₃
    exact (Read.takes_token _).bind ((Read.takes_utf16 hy (hf.utf16 (by simp [fields]))).bind
      ((Read.takes_u16 _).bind (Read.takes_pure _)))
  | reference token target count =>
    obtain ⟨x, _, hx, h₁, rfl⟩ := Field.writeAll_cons_inv h
    obtain ⟨y, _, hy, h₂, rfl⟩ := Field.writeAll_cons_inv h₁
    obtain ⟨z, _, hz, h₃, rfl⟩ := Field.writeAll_cons_inv h₂
    cases hx
    cases hy
    cases hz
    cases h₃
    exact (Read.takes_token _).bind ((Read.takes_token _).bind
      ((Read.takes_i64 _).bind (Read.takes_pure _)))
  | servicesRequest token =>
    obtain ⟨x, _, hx, h₁, rfl⟩ := Field.writeAll_cons_inv h
    cases hx
    cases h₁
    exact (Read.takes_token _).bind (Read.takes_pure _)
  | stateSubscribe path interval | stateEmitResponse path interval =>
    obtain ⟨x, _, hx, h₁, rfl⟩ := Field.writeAll_cons_inv h
    obtain ⟨y, _, hy, h₂, rfl⟩ := Field.writeAll_cons_inv h₁
    cases hy
    cases h₂
    exact (Read.takes_utf16 hx (hf.utf16 (by simp [fields]))).bind
      ((Read.takes_u32 _).bind (Read.takes_pure _))
  | stateEmit path json =>
    obtain ⟨x, _, hx, h₁, rfl⟩ := Field.writeAll_cons_inv h
    obtain ⟨y, _, hy, h₂, rfl⟩ := Field.writeAll_cons_inv h₁
    cases h₂
    exact (Read.takes_utf16 hx (hf.utf16 (by simp [fields]))).bind
      ((Read.takes_utf16 hy (hf.utf16 (by simp [fields]))).bind (Read.takes_pure _))
  | beatStartStream | beatStopStream =>
    cases h
    exact Read.takes_pure _
  | beatEmit sample =>
    obtain ⟨hlen, hlim⟩ := countsFit_beatEmit hc
    exact (Read.takes_beatSample h hlen hlim).bind_pure Message.beatEmit
  | discovery announcement =>
    exact (Read.takes_announcement h hf).bind_pure Message.discovery

theorem takes_bodyReader {m : Message} {b : Octets} (h : m.body = .ok b) (hf : m.TextsFit) :
    Read.Takes m.kind.bodyReader b m := by
  obtain ⟨hc, x, hx, rfl⟩ := body_inv h
  exact (Read.takes_expectAll _).bind (takes_fieldsReader hx hc hf)

theorem decode_of_takes {k : MessageKind} {m : Message} {b : Octets} (h : Read.Takes k.reader b m)
    (rest : Octets) : k.decode (b ++ rest) = .ok (m, b.length) := by
  rw [MessageKind.decode, Cursor.start, h 0 rest, Nat.zero_add]

/-- **The reader of a kind takes the octets of its messages.** -/
theorem takes_reader {m : Message} {b : Octets} (h : m.encode = .ok b) (hf : m.TextsFit) :
    Read.Takes m.kind.reader b m := by
  obtain ⟨x, hx, ⟨hframe, hlim, rfl⟩ | ⟨hbare, rfl⟩⟩ := encode_inv h
  · have ht := Read.takes_framed (takes_bodyReader hx hf) [] (by rwa [List.append_nil])
    rw [List.append_nil] at ht
    rwa [MessageKind.reader, if_pos hframe]
  · rw [MessageKind.reader, if_neg (by simp [hbare])]
    exact takes_bodyReader hx hf

/-- **What was written is read back**, and no octet behind it is touched. -/
theorem decode_encode_append {m : Message} {b : Octets} (h : m.encode = .ok b) (hf : m.TextsFit)
    (rest : Octets) : m.kind.decode (b ++ rest) = .ok (m, b.length) := by
  rw [MessageKind.decode, Cursor.start, takes_reader h hf 0 rest, Nat.zero_add]

/-- A state whose path has a character outside the first plane, with an octet behind the frame. -/
theorem decode_encode_state :
    (Message.stateEmit "/𝄞" "1").encode = .ok [0, 0, 0, 24, 0x73, 0x6D, 0x61, 0x61, 0, 0, 0, 0,
        0, 0, 0, 6, 0, 0x2F, 0xD8, 0x34, 0xDD, 0x1E, 0, 0, 0, 2, 0, 0x31] ∧
      (Message.stateEmit "/𝄞" "1").TextsFit ∧
      MessageKind.stateEmit.decode ([0, 0, 0, 24, 0x73, 0x6D, 0x61, 0x61, 0, 0, 0, 0,
        0, 0, 0, 6, 0, 0x2F, 0xD8, 0x34, 0xDD, 0x1E, 0, 0, 0, 2, 0, 0x31] ++ [0xFF]) =
          .ok (.stateEmit "/𝄞" "1", 28) :=
  ⟨rfl, by decide, decode_encode_append (m := .stateEmit "/𝄞" "1") rfl (by decide) [0xFF]⟩

end Message

end BoothLink
