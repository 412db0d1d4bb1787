import BoothLink.Message.Progress
import BoothLink.Proofs.Message.Frames
import BoothLink.Proofs.Wire.Canonical

/-!
# Messages have one form

Whatever is accepted as a message can be written again, and then it is what was accepted. A message
without a length is written as the very octets that were read. In a frame the octets behind the last
field are passed over, and only they are lost: the length is that of what is left.

* `Read.spells_times`: values one after the other.
* `MessageKind.spells_fieldsReader`, `MessageKind.passes_bodyReader`: the fields of each kind, and its
  opening words with them.
* `MessageKind.frame_of_decode`: the frame of a message that was read.
* **`MessageKind.decode_canonical`**: what was read is written again as it was.
-/

namespace BoothLink

namespace Read

variable {α : Type} {c c' : Cursor}

theorem passes_expectAll {words : List Octets} (h : run (expectAll words) c = (.ok (), c')) :
    c.Passes words.flatten c' := by
  induction words generalizing c with
  | nil =>
    cases h
    exact .refl _
  | cons w ws ih =>
    obtain ⟨_, c₁, hw, hws⟩ := run_bind_ok_iff.mp h
    exact (passes_expect hw).trans (ih hws)

/-! ## Samples -/

/-- **Values that were read one after the other stand one behind the other.** -/
theorem spells_times {r : Read α} {f : α → List Field}
    (hr : ∀ {c a c'}, run r c = (.ok a, c') → c.Spells (f a) c') {n : Nat} {done as : List α}
    (h : run (times r n done) c = (.ok as, c')) :
    ∃ new, as = done.reverse ++ new ∧ new.length = n ∧ c.Spells (new.flatMap f) c' := by
  induction n generalizing c done with
  | zero =>
    cases h
    exact ⟨[], (List.append_nil _).symm, rfl, .nil _⟩
  | succ n ih =>
    obtain ⟨a, c₁, ha, hrest⟩ := run_bind_ok_iff.mp h
    obtain ⟨new, rfl, hlen, hnew⟩ := ih hrest
    refine ⟨a :: new, ?_, congrArg (· + 1) hlen, (hr ha).append hnew⟩
    rw [List.reverse_cons, List.append_assoc, List.singleton_append]

theorem spells_deck {d : DeckBeat} (h : run deck c = (.ok d, c')) : c.Spells d.fields c' := by
  obtain ⟨beat, c₁, hbeat, h⟩ := run_bind_ok_iff.mp h
  obtain ⟨total, c₂, htotal, h⟩ := run_bind_ok_iff.mp h
  obtain ⟨bpm, hbpm, rfl⟩ := run_bind_pure_ok_iff.mp h
  exact (spells_f64 hbeat).cons ((spells_f64 htotal).cons (spells_f64 hbpm))

theorem eq_of_ensure {records width : Nat} (h : run (ensure records width) c = (.ok (), c')) :
    c' = c := by
  rw [ensure_run] at h
  split at h
  · cases h
  · cases h
    rfl

/-- **A sample that was read can be written**, and stands where it was read. -/
theorem spells_beatSample {s : BeatSample} (h : run beatSample c = (.ok s, c')) :
    (s.decks.length = s.timelines.length ∧ s.decks.length ≤ lengthLimit) ∧
      c.Spells s.fields c' := by
  obtain ⟨clock, c₁, hclock, h⟩ := run_bind_ok_iff.mp h
  obtain ⟨records, c₂, hrecords, h⟩ := run_bind_ok_iff.mp h
  obtain ⟨_, c₃, hdecksThere, h⟩ := run_bind_ok_iff.mp h
  cases eq_of_ensure hdecksThere
  obtain ⟨decks, c₄, hdecks, h⟩ := run_bind_ok_iff.mp h
  obtain ⟨_, c₅, htimesThere, h⟩ := run_bind_ok_iff.mp h
  cases eq_of_ensure htimesThere
  obtain ⟨timelines, htimes, rfl⟩ := run_bind_pure_ok_iff.mp h
  obtain ⟨_, rfl, hdeckCount, hdeckOctets⟩ := spells_times spells_deck hdecks
  obtain ⟨_, rfl, htimeCount, htimeOctets⟩ :=
    spells_times (f := fun x => [.f64 x]) spells_f64 htimes
  rw [← List.map_eq_flatMap] at htimeOctets
  refine ⟨⟨hdeckCount.trans htimeCount.symm, ?_⟩, ?_⟩
  · have hlt := records.toNat_lt
    show decks.length ≤ lengthLimit
    rw [hdeckCount, lengthLimit]
    omega
  · have hcount := spells_u32 hrecords
    rw [← UInt32.ofNat_toNat (x := records), ← hdeckCount] at hcount
    exact (spells_u64 hclock).cons (hcount.cons (hdeckOctets.append htimeOctets))

/-! ## Announcements -/

theorem wireText_of_ofWire {s : String} {a : Action} (h : Action.ofWire s = .ok a) :
    a.wireText = s := by
  rw [Action.ofWire] at h
  split at h
  · next hs =>
    cases h
    exact hs.symm
  · split at h
    · next hs =>
      cases h
      exact hs.symm
    · cases h

theorem spells_announcement {a : Announcement} (h : run announcement c = (.ok a, c')) :
    c.Spells a.fields c' := by
  obtain ⟨token, c₁, htoken, h⟩ := run_bind_ok_iff.mp h
  obtain ⟨source, c₂, hsource, h⟩ := run_bind_ok_iff.mp h
  obtain ⟨text, c₃, htext, h⟩ := run_bind_ok_iff.mp h
  obtain ⟨name, c₄, hname, h⟩ := run_bind_ok_iff.mp h
  obtain ⟨version, c₅, hversion, h⟩ := run_bind_ok_iff.mp h
  obtain ⟨port, c₆, hport, h⟩ := run_bind_ok_iff.mp h
  cases haction : Action.ofWire text with
  | error e =>
    rw [haction] at h
    cases h
  | ok action =>
    rw [haction] at h
    cases h
    have hwire := wireText_of_ofWire haction
    refine (spells_token htoken).cons ((spells_utf16 hsource).cons (Cursor.Spells.cons ?_
      ((spells_utf16 hname).cons ((spells_utf16 hversion).cons (spells_u16 hport)))))
    rw [hwire]
    exact spells_utf16 htext

end Read

namespace MessageKind

open Read

variable {k : MessageKind} {m : Message} {b : Octets} {n : Nat} {c c' : Cursor}

/-- **The fields that were read are those of the message**, and it can be written. -/
theorem spells_fieldsReader (h : run k.fieldsReader c = (.ok m, c')) :
    m.kind = k ∧ m.countsFit = .ok () ∧ c.Spells m.fields c' := by
  cases k with
  | serviceAnnouncement =>
    obtain ⟨token, c₁, htoken, h⟩ := run_bind_ok_iff.mp h
    obtain ⟨service, c₂, hservice, h⟩ := run_bind_ok_iff.mp h
    obtain ⟨port, hport, rfl⟩ := run_bind_pure_ok_iff.mp h
    exact ⟨rfl, rfl, (spells_token htoken).cons ((spells_utf16 hservice).cons (spells_u16 hport))⟩
  | reference =>
    obtain ⟨token, c₁, htoken, h⟩ := run_bind_ok_iff.mp h
    obtain ⟨target, c₂, htarget, h⟩ := run_bind_ok_iff.mp h
    obtain ⟨count, hcount, rfl⟩ := run_bind_pure_ok_iff.mp h
    exact ⟨rfl, rfl, (spells_token htoken).cons ((spells_token htarget).cons (spells_i64 hcount))⟩
  | servicesRequest =>
    obtain ⟨token, htoken, rfl⟩ := run_bind_pure_ok_iff.mp h
    exact ⟨rfl, rfl, spells_token htoken⟩
  | stateSubscribe | stateEmitResponse =>
    obtain ⟨path, c₁, hpath, h⟩ := run_bind_ok_iff.mp h
    obtain ⟨interval, hinterval, rfl⟩ := run_bind_pure_ok_iff.mp h
    exact ⟨rfl, rfl, (spells_utf16 hpath).cons (spells_u32 hinterval)⟩
  | stateEmit =>
    obtain ⟨path, c₁, hpath, h⟩ := run_bind_ok_iff.mp h
    obtain ⟨json, hjson, rfl⟩ := run_bind_pure_ok_iff.mp h
    exact ⟨rfl, rfl, (spells_utf16 hpath).cons (spells_utf16 hjson)⟩
  | beatStartStream | beatStopStream =>
    cases h
    exact ⟨rfl, rfl, .nil _⟩
  | beatEmit =>
    obtain ⟨sample, hsample, rfl⟩ := run_bind_pure_ok_iff.mp h
    obtain ⟨⟨hlen, hlim⟩, hspells⟩ := spells_beatSample hsample
    refine ⟨rfl, ?_, hspells⟩
    rw [Message.countsFit, if_neg (not_not.mpr hlen), if_neg (Nat.not_lt.mpr hlim)]
  | discovery =>
    obtain ⟨a, ha, rfl⟩ := run_bind_pure_ok_iff.mp h
    exact ⟨rfl, rfl, spells_announcement ha⟩

theorem passes_bodyReader (h : run k.bodyReader c = (.ok m, c')) :
    m.kind = k ∧ m.TextsFit ∧ ∃ body, m.body = .ok body ∧ c.Passes body c' := by
  obtain ⟨_, c₁, hopen, hfields⟩ := run_bind_ok_iff.mp h
  obtain ⟨rfl, hcounts, hspells⟩ := spells_fieldsReader hfields
  obtain ⟨x, hx, hpass⟩ := hspells.written
  refine ⟨rfl, hspells.fits, _, ?_, (passes_expectAll hopen).trans hpass⟩
  rw [Message.body, hcounts, hx]
  rfl

/-! ## What was read -/

/-- A message without a length that was read is written as the octets that were passed. -/
theorem encode_of_decode_bare (hbare : k.framing.isFrame = false) (h : k.decode b = .ok (m, n)) :
    m.kind = k ∧ m.TextsFit ∧ m.encode = .ok (b.take n) := by
  rw [decode, reader, if_neg (by simp [hbare])] at h
  split at h
  · next c hrun =>
    cases h
    obtain ⟨rfl, hfits, body, hbody, hahead, hpos⟩ := passes_bodyReader hrun
    have hlen : c.position = body.length := hpos.trans (Nat.zero_add _)
    have hb : b = body ++ c.ahead := hahead
    refine ⟨rfl, hfits, ?_⟩
    rw [hlen, hb, List.take_left, Message.encode, hbody]
    exact if_neg (by simp [hbare])
  · cases h

/-- **The frame of a message that was read**: it is all there, and the body of the message stands at the
beginning of its content. -/
theorem frame_of_decode (hframe : k.framing.isFrame = true) (h : k.decode b = .ok (m, n)) :
    FrameArrived b ∧ n = 4 + frameSize b ∧ m.kind = k ∧ m.TextsFit ∧
      ∃ body, m.body = .ok body ∧ body <+: frameContent b := by
  have harrived : FrameArrived b := by
    rw [decode, reader, if_pos hframe] at h
    split at h
    · next c hrun =>
      obtain ⟨content, c₁, hcontent, -⟩ := run_bind_ok_iff.mp hrun
      obtain ⟨hlim, hahead, -⟩ := counted_ok_iff.mp hcontent
      have hb : b = Octets.ofNat 4 content.length ++ content ++ c₁.ahead := hahead
      have hsize : frameSize b = content.length := by
        rw [frameSize, hb, List.append_assoc, List.take_left' (Octets.length_ofNat _ _),
          Message.value_length hlim]
      refine ⟨hsize ▸ hlim, ?_⟩
      rw [hsize, hb, List.length_append, List.length_append, Octets.length_ofNat]
      omega
    · cases h
  rw [decode_frame hframe harrived] at h
  generalize hrun : run k.bodyReader (Cursor.start (frameContent b)) = found at h
  obtain ⟨answer, c⟩ := found
  cases answer with
  | error e => cases h
  | ok m' =>
    cases h
    obtain ⟨hkind, hfits, body, hbody, hahead, -⟩ := passes_bodyReader hrun
    exact ⟨harrived, rfl, hkind, hfits, body, hbody, c.ahead, hahead.symm⟩

/-- **The frame that is written** again declares the length of the body alone. -/
theorem encode_of_decode_frame (hframe : k.framing.isFrame = true) (h : k.decode b = .ok (m, n)) :
    ∃ e, m.encode = .ok e ∧ e.length ≤ n ∧
      e = Octets.ofNat 4 (e.length - 4) ++ (b.take e.length).drop 4 := by
  obtain ⟨harrived, rfl, rfl, -, body, hbody, hpre⟩ := frame_of_decode hframe h
  have hsize := harrived.length_content
  have hle := hpre.length_le
  have hlim : ¬ frameLimit < body.length := by
    have := harrived.size_le
    omega
  have hlen : (Octets.ofNat 4 body.length ++ body).length = 4 + body.length := by
    rw [List.length_append, Octets.length_ofNat]
  refine ⟨Octets.ofNat 4 body.length ++ body, ?_, by omega, ?_⟩
  · rw [Message.encode, hbody]
    exact (if_pos hframe).trans (if_neg hlim)
  · have hcontent : (b.take (4 + body.length)).drop 4 = body := by
      have htake := List.prefix_iff_eq_take.mp hpre
      rw [frameContent, List.take_take, Nat.min_eq_left (by omega)] at htake
      rw [List.drop_take, Nat.add_sub_cancel_left, ← htake]
    rw [hlen, hcontent, Nat.add_sub_cancel_left]

/-- **What was read is told by the octets that it takes.** -/
theorem decode_take (h : k.decode b = .ok (m, n)) : k.decode (b.take n) = .ok (m, n) := by
  cases hframe : k.framing.isFrame with
  | false =>
    obtain ⟨rfl, hfits, hencode⟩ := encode_of_decode_bare hframe h
    have hback := Message.decode_of_takes (Message.takes_reader hencode hfits) []
    rwa [List.append_nil, List.length_take_of_le (decode_consumes h).2] at hback
  | true =>
    obtain ⟨harrived, rfl, -⟩ := frame_of_decode hframe h
    obtain ⟨htake, hsize, hcontent⟩ := harrived.take
    rw [decode_frame hframe htake, hsize, hcontent, ← decode_frame hframe harrived, h]

/-- **What was read is written again as it was**: the octets that were passed, but for those that a
frame holds behind its last field. -/
theorem decode_canonical {k : MessageKind} {b : Octets} {m : Message} {n : Nat}
    (h : k.decode b = .ok (m, n)) :
    m.kind = k ∧ 0 < n ∧ n ≤ b.length ∧ (∀ rest, k.decode (b.take n ++ rest) = .ok (m, n)) ∧
      ∃ e, m.encode = .ok e ∧
        (k.framing.isFrame = false → e = b.take n) ∧
        (k.framing.isFrame = true → n = 4 + frameSize b ∧ e.length ≤ n ∧
          e = Octets.ofNat 4 (e.length - 4) ++ (b.take e.length).drop 4) ∧
        ∀ rest, k.decode (e ++ rest) = .ok (m, e.length) := by
  obtain ⟨hfour, hle⟩ := decode_consumes h
  have htake := decode_take h
  have hlocal : ∀ rest, k.decode (b.take n ++ rest) = .ok (m, n) := by
    intro rest
    rw [decode_append (by rw [htake]; exact nofun), htake]
  cases hframe : k.framing.isFrame with
  | false =>
    obtain ⟨rfl, hfits, hencode⟩ := encode_of_decode_bare hframe h
    exact ⟨rfl, by omega, hle, hlocal, _, hencode, fun _ => rfl, nofun,
      Message.decode_of_takes (Message.takes_reader hencode hfits)⟩
  | true =>
    obtain ⟨-, hn, rfl, hfits, -⟩ := frame_of_decode hframe h
    obtain ⟨e, hencode, hshort, hoctets⟩ := encode_of_decode_frame hframe h
    exact ⟨rfl, by omega, hle, hlocal, e, hencode, nofun, fun _ => ⟨hn, hshort, hoctets⟩,
      Message.decode_of_takes (Message.takes_reader hencode hfits)⟩

/-- A subscription in a frame with two octets behind its interval, and an octet behind the frame. -/
def paddedSubscription : Octets :=
  [0, 0, 0, 20, 0x73, 0x6D, 0x61, 0x61, 0, 0, 7, 0xD2, 0, 0, 0, 2, 0, 0x2F, 0, 0, 0, 10, 0xDE, 0xAD,
    0xFF]

theorem decode_canonical_padded :
    stateSubscribe.decode paddedSubscription = .ok (.stateSubscribe "/" 10, 24) ∧
      ∃ e, (Message.stateSubscribe "/" 10).encode = .ok e ∧
        e = Octets.ofNat 4 (e.length - 4) ++ (paddedSubscription.take e.length).drop 4 ∧
        stateSubscribe.decode (e ++ []) = .ok (.stateSubscribe "/" 10, e.length) := by
  have h : stateSubscribe.decode paddedSubscription = .ok (.stateSubscribe "/" 10, 24) := rfl
  obtain ⟨-, -, -, -, e, hencode, -, hframe, hback⟩ := decode_canonical h
  exact ⟨h, e, hencode, (hframe rfl).2.2, hback []⟩

end MessageKind

end BoothLink
