import BoothLink.Proofs.Catalog.Recovery
import BoothLink.Proofs.Link.Pieces
import BoothLink.Proofs.Message.Canonical
import BoothLink.Proofs.Wire.Rows

/-!
# What stands in front on a main connection

Messages of a main connection have no length in front. A number says which kind it is, and each ends where
its last field does: two kinds after a fixed number of octets, an announcement behind a text and a port.
The fields are read in their order, so that a text is looked at as soon as it is there, and its length as
soon as that is, before the port is waited for.

* `MainFront`: what stands in front of some octets, and the answer to it.
* `Catalog.identify_mainLink`: which kind is found.
* **`Catalog.decode_mainLink_iff`**: decoding gives this answer and no other, and waits for no more
  octets than the longest announcement has.
* `Inbox.Goes`: how an inbox is filled and emptied.
-/

namespace BoothLink

/-- What stands in front of octets on a main connection, and the answer to it. -/
inductive MainFront (b : Octets) : Except WireError (Option (Message × Nat)) → Prop
  /-- A number has not arrived. -/
  | short (h : b.length < 4) : MainFront b (.ok none)
  | referenceCut (h : 4 ≤ b.length) (hnumber : b.wordAt 0 = 1) (hcut : b.length < 44) :
      MainFront b (.ok none)
  | reference {token target : Token} {count : Int64} (h : 44 ≤ b.length) (hnumber : b.wordAt 0 = 1)
      (hoctets : (Message.reference token target count).encode = .ok (b.take 44)) :
      MainFront b (.ok (some (.reference token target count, 44)))
  | requestCut (h : 4 ≤ b.length) (hnumber : b.wordAt 0 = 2) (hcut : b.length < 20) :
      MainFront b (.ok none)
  | request {token : Token} (h : 20 ≤ b.length) (hnumber : b.wordAt 0 = 2)
      (hoctets : (Message.servicesRequest token).encode = .ok (b.take 20)) :
      MainFront b (.ok (some (.servicesRequest token, 20)))
  /-- An announcement without the length of its name. -/
  | lengthCut (h : 4 ≤ b.length) (hnumber : b.wordAt 0 = 0) (hcut : b.length < 24) :
      MainFront b (.ok none)
  | tooLarge (h : 24 ≤ b.length) (hnumber : b.wordAt 0 = 0) (hlarge : frameLimit < b.wordAt 20) :
      MainFront b (.error (.tooLarge (b.wordAt 20) frameLimit))
  /-- An announcement whose name has not arrived whole. -/
  | nameCut (h : 24 ≤ b.length) (hnumber : b.wordAt 0 = 0) (hlim : b.wordAt 20 ≤ frameLimit)
      (hcut : b.length < 24 + b.wordAt 20) : MainFront b (.ok none)
  | oddName (h : 24 + b.wordAt 20 ≤ b.length) (hnumber : b.wordAt 0 = 0)
      (hlim : b.wordAt 20 ≤ frameLimit) (hodd : b.wordAt 20 % 2 = 1) :
      MainFront b (.error (.encoding (.oddLength (b.wordAt 20))))
  /-- A name of whole units that are no text. -/
  | brokenName (h : 24 + b.wordAt 20 ≤ b.length) (hnumber : b.wordAt 0 = 0)
      (hlim : b.wordAt 20 ≤ frameLimit) (heven : b.wordAt 20 % 2 = 0)
      (hbroken : ∀ s : String, Utf16.encode s.toList ≠ (b.drop 24).take (b.wordAt 20)) :
      MainFront b (.error (.encoding .loneSurrogate))
  /-- An announcement with its name but without its port. -/
  | portCut {service : String} (h : 24 + b.wordAt 20 ≤ b.length) (hnumber : b.wordAt 0 = 0)
      (hlim : b.wordAt 20 ≤ frameLimit)
      (hname : Utf16.encode service.toList = (b.drop 24).take (b.wordAt 20))
      (hcut : b.length < 26 + b.wordAt 20) : MainFront b (.ok none)
  | announcement {token : Token} {service : String} {port : UInt16} (h : 26 + b.wordAt 20 ≤ b.length)
      (hnumber : b.wordAt 0 = 0) (hlim : b.wordAt 20 ≤ frameLimit)
      (hname : Utf16.encode service.toList = (b.drop 24).take (b.wordAt 20))
      (hoctets : (Message.serviceAnnouncement token service port).encode =
        .ok (b.take (26 + b.wordAt 20))) :
      MainFront b (.ok (some (.serviceAnnouncement token service port, 26 + b.wordAt 20)))
  | unknown (h : 4 ≤ b.length) (hnumber : 2 < b.wordAt 0) : MainFront b (.error (.unknownMessage b))

namespace MessageKind

variable {b : Octets} {k : MessageKind}

/-- A message without a frame is read behind its number. -/
theorem reader_bare {number : UInt32} (hk : k.framing = .bare number) (h : 4 ≤ b.length)
    (hnumber : b.wordAt 0 = number.toNat) :
    Read.run k.reader (Cursor.start b) = Read.run k.fieldsReader ⟨4, b.drop 4⟩ := by
  have hopen : k.framing.opening.flatten = Octets.ofNat 4 number.toNat := by
    simp [hk, Framing.opening, numberOctets]
  have hword : b.take 4 = Octets.ofNat 4 number.toNat :=
    (Octets.take_drop_eq_ofNat_iff (i := 0) h number.toNat_lt).mpr hnumber
  have hfields := run_bodyReader k (b.drop 4)
  have hbare : ¬ k.framing.isFrame = true := by simp [hk, Framing.isFrame]
  rw [hopen, ← hword, List.take_append_drop, List.length_take_of_le h] at hfields
  rw [reader, if_neg hbare, hfields]

/-- A message of a fixed extent is waited for until all of it is there. -/
theorem decode_cut {number : UInt32} {n : Nat} (hk : k.framing = .bare number) (h : 4 ≤ b.length)
    (hnumber : b.wordAt 0 = number.toNat) (hfixed : Read.Fixed k.fieldsReader n)
    (hsettled : Read.Settled k.fieldsReader) (hcut : b.length < 4 + n) :
    k.decode b = .error .truncated := by
  rw [decode_error_iff, reader_bare hk h hnumber]
  refine hfixed.runsOut hsettled ?_
  rw [Cursor.remaining_drop]
  omega

/-- A message of a fixed extent that is all there can be read. -/
theorem exists_whole {number : UInt32} {n : Nat} (hk : k.framing = .bare number)
    (hnumber : b.wordAt 0 = number.toNat) (hfixed : Read.Fixed k.fieldsReader n)
    (h : 4 + n ≤ b.length) : ∃ m : Message, m.kind = k ∧ m.encode = .ok (b.take (4 + n)) := by
  have hthere : n ≤ (Cursor.mk 4 (b.drop 4)).remaining := by
    rw [Cursor.remaining_drop]
    omega
  obtain ⟨m, hm⟩ := hfixed _ hthere
  rw [← reader_bare hk (by omega) hnumber] at hm
  have hdecode : k.decode b = .ok (m, 4 + n) := by rw [decode, hm]
  have hbare : k.framing.isFrame = false := by simp [hk, Framing.isFrame]
  obtain ⟨hkind, -, hencode⟩ := encode_of_decode_bare hbare hdecode
  exact ⟨m, hkind, hencode⟩

theorem fixed_reference : Read.Fixed reference.fieldsReader 40 :=
  Read.fixed_token.bind fun _ => Read.fixed_token.bind fun _ => Read.fixed_i64.bind_pure _

theorem settled_reference : Read.Settled reference.fieldsReader :=
  Read.settled_token.bind fun _ => Read.settled_token.bind fun _ =>
    Read.settled_i64.bind fun _ => Read.settled_pure _

theorem fixed_servicesRequest : Read.Fixed servicesRequest.fieldsReader 16 :=
  Read.fixed_token.bind_pure _

theorem settled_servicesRequest : Read.Settled servicesRequest.fieldsReader :=
  Read.settled_token.bind fun _ => Read.settled_pure _

/-! ## Announcements -/

/-- Behind its token an announcement is a name and a port. -/
theorem announcement_run (h : 20 ≤ b.length) (hnumber : b.wordAt 0 = 0) :
    ∃ token, Read.run serviceAnnouncement.reader (Cursor.start b) =
      Read.run (Read.utf16 >>= fun service => Read.u16 >>= fun port =>
        pure (.serviceAnnouncement token service port)) ⟨20, b.drop 20⟩ := by
  have hthere : 16 ≤ (Cursor.mk 4 (b.drop 4)).remaining := by
    rw [Cursor.remaining_drop]
    omega
  obtain ⟨token, htoken⟩ := Read.fixed_token _ hthere
  have hbehind : (b.drop 4).drop 16 = b.drop 20 := List.drop_drop
  rw [hbehind] at htoken
  refine ⟨token, ?_⟩
  rw [reader_bare (k := .serviceAnnouncement) rfl (by omega) hnumber]
  exact Read.run_bind_ok htoken _

/-- An announcement is waited for while its name or its port is cut. -/
theorem announcement_cut (h : 20 ≤ b.length) (hnumber : b.wordAt 0 = 0)
    (hcut : CutsCounted (b.drop 20) ∨ ∃ rest, TextThen (b.drop 20) rest ∧ rest.length < 2) :
    serviceAnnouncement.decode b = .error .truncated := by
  obtain ⟨token, hrun⟩ := announcement_run h hnumber
  have hport : ∀ (s : String) (c : Cursor), Read.RunsOut (Read.u16 >>= fun port =>
      pure (Message.serviceAnnouncement token s port)) c ↔ c.ahead.length < 2 := fun s c =>
    Read.runsOut_bind_pure.trans (Read.runsOut_bind_pure.trans Read.runsOut_number)
  rw [decode_error_iff, hrun]
  exact (Read.runsOut_utf16_bind hport).mpr hcut

/-- An announcement is refused with its name. -/
theorem announcement_refused {e : WireError} (h : 20 ≤ b.length) (hnumber : b.wordAt 0 = 0)
    (hname : (Read.run Read.utf16 ⟨20, b.drop 20⟩).1 = .error e) :
    serviceAnnouncement.decode b = .error e := by
  obtain ⟨token, hrun⟩ := announcement_run h hnumber
  rw [decode_error_iff, hrun, Read.run_bind]
  generalize Read.run Read.utf16 ⟨20, b.drop 20⟩ = found at hname
  obtain ⟨answer, c⟩ := found
  cases hname
  rfl

theorem name_tooLarge (h : 24 ≤ b.length) (hlarge : frameLimit < b.wordAt 20) :
    (Read.run Read.utf16 ⟨20, b.drop 20⟩).1 = .error (.tooLarge (b.wordAt 20) frameLimit) := by
  have hword : Octets.wordAt (b.drop 20) 0 = b.wordAt 20 := Octets.wordAt_drop b 20 0
  have hthere : 4 ≤ (Cursor.mk 20 (b.drop 20)).remaining := by
    rw [Cursor.remaining_drop]
    omega
  have hrefused := Read.counted_tooLarge (c := ⟨20, b.drop 20⟩) hthere (by rwa [hword])
  rw [hword] at hrefused
  rw [Read.utf16, Read.run_bind_error hrefused]

/-- A name that is all there is looked at. -/
theorem name_run (h : 24 + b.wordAt 20 ≤ b.length) (hlim : b.wordAt 20 ≤ frameLimit) :
    Read.run Read.utf16 ⟨20, b.drop 20⟩ =
      Read.run (Read.checked (Read.textOfUnits ((b.drop 24).take (b.wordAt 20))))
        ⟨24 + b.wordAt 20, b.drop (24 + b.wordAt 20)⟩ := by
  have hword : Octets.wordAt (b.drop 20) 0 = b.wordAt 20 := Octets.wordAt_drop b 20 0
  have hthere : 4 + b.wordAt 20 ≤ (Cursor.mk 20 (b.drop 20)).remaining := by
    rw [Cursor.remaining_drop]
    omega
  have hrun := Read.utf16_run (c := ⟨20, b.drop 20⟩) (by rwa [hword]) (by rwa [hword])
  simp only [hword, List.drop_drop, ← Nat.add_assoc] at hrun
  exact hrun

theorem length_name (h : 24 + b.wordAt 20 ≤ b.length) :
    ((b.drop 24).take (b.wordAt 20)).length = b.wordAt 20 := by
  rw [List.length_take, List.length_drop]
  omega

/-- Behind the token of an announcement whose name is all there stands this name. -/
theorem textThen_name {service : String} (h : 24 + b.wordAt 20 ≤ b.length)
    (hlim : b.wordAt 20 ≤ frameLimit)
    (hname : Utf16.encode service.toList = (b.drop 24).take (b.wordAt 20)) :
    TextThen (b.drop 20) (b.drop (24 + b.wordAt 20)) := by
  have hlen := length_name h
  have hword := (Octets.take_drop_eq_ofNat_iff (b := b) (i := 20) (by omega) (b.wordAt_lt 20)).mpr rfl
  have htext : Read.textOfUnits ((b.drop 24).take (b.wordAt 20)) = .ok service := by
    rw [← hname, Read.textOfUnits_encode]
  refine ⟨(b.drop 24).take (b.wordAt 20), service, by rwa [hlen], htext, ?_⟩
  have hbehind : (b.drop 20).drop 4 = b.drop 24 := List.drop_drop
  rw [hlen, ← hword, List.append_assoc, ← List.drop_drop, List.take_append_drop, ← hbehind,
    List.take_append_drop]

/-- **An announcement that is all there can be read.** -/
theorem exists_announcement {service : String} (h : 26 + b.wordAt 20 ≤ b.length)
    (hnumber : b.wordAt 0 = 0) (hlim : b.wordAt 20 ≤ frameLimit)
    (hname : Utf16.encode service.toList = (b.drop 24).take (b.wordAt 20)) :
    ∃ token port, (Message.serviceAnnouncement token service port).encode =
      .ok (b.take (26 + b.wordAt 20)) := by
  obtain ⟨token, hrun⟩ := announcement_run (by omega) hnumber
  have hread : Read.run Read.utf16 ⟨20, b.drop 20⟩ =
      (.ok service, ⟨24 + b.wordAt 20, b.drop (24 + b.wordAt 20)⟩) := by
    rw [name_run (by omega) hlim, ← hname, Read.textOfUnits_encode]
    rfl
  have hthere : 2 ≤ (Cursor.mk (24 + b.wordAt 20) (b.drop (24 + b.wordAt 20))).remaining := by
    rw [Cursor.remaining_drop]
    omega
  obtain ⟨port, hport⟩ := Read.fixed_u16 _ hthere
  rw [Read.run_bind_ok hread, Read.run_bind_ok hport] at hrun
  have hdecode : serviceAnnouncement.decode b =
      .ok (.serviceAnnouncement token service port, 24 + b.wordAt 20 + 2) := by
    rw [decode, hrun]
    rfl
  have hsum : 24 + b.wordAt 20 + 2 = 26 + b.wordAt 20 := by omega
  rw [hsum] at hdecode
  exact ⟨token, port, (encode_of_decode_bare rfl hdecode).2.2⟩

end MessageKind

namespace Catalog

variable {b : Octets} {a : Except WireError (Option (Message × Nat))}

/-- A look for a message without a frame goes by its number. -/
theorem peek_bare {k : MessageKind} (number : UInt32) (hk : k.framing = .bare number)
    (h : 4 ≤ b.length) :
    k.peek b = if b.wordAt 0 = number.toNat then .matched else .mismatch := by
  have hlook : k.framing.lookahead = 4 := by rw [hk]; rfl
  have hbare : k.framing.isFrame = false := by rw [hk]; rfl
  have hopen : k.framing.opening.flatten = Octets.ofNat 4 number.toNat := by
    simp [hk, Framing.opening, numberOctets]
  have hword := Octets.take_drop_eq_ofNat_iff (i := 0) h number.toNat_lt
  rw [List.drop_zero] at hword
  have hbegins : k.begins b = true ↔ b.wordAt 0 = number.toNat := by
    rw [MessageKind.begins_iff, MessageKind.words, hopen, hbare]
    simpa using hword
  rw [MessageKind.peek_eq (hlook ▸ h)]
  simp only [hbegins]

/-- **Which kind is found on a main connection.** -/
theorem identify_mainLink (h : 4 ≤ b.length) : mainLink.identify b =
    if b.wordAt 0 = 0 then .ok (some .serviceAnnouncement)
    else if b.wordAt 0 = 1 then .ok (some .reference)
    else if b.wordAt 0 = 2 then .ok (some .servicesRequest)
    else .error (.unknownMessage b) := by
  have hservice := peek_bare (k := .serviceAnnouncement) 0 rfl h
  have hreference := peek_bare (k := .reference) 1 rfl h
  have hrequest := peek_bare (k := .servicesRequest) 2 rfl h
  simp only [UInt32.reduceToNat] at hservice hreference hrequest
  simp only [identify, mainLink, identifyIn, hservice, hreference, hrequest]
  split_ifs <;> rfl

theorem identify_announcement (h : 4 ≤ b.length) (hnumber : b.wordAt 0 = 0) :
    mainLink.identify b = .ok (some .serviceAnnouncement) := by
  rw [identify_mainLink h, if_pos hnumber]

theorem decode_of_cut {catalog : Catalog} {k : MessageKind} (hid : catalog.identify b = .ok (some k))
    (hcut : k.decode b = .error .truncated) : catalog.decode b = .ok none := by
  rw [decode_of_identify hid, hcut]

/-- A message that stands in front as it is written is found. -/
theorem decode_of_encode {m : Message} {k : MessageKind} (hk : k ∈ mainLink.kinds) (hm : m.kind = k)
    (hfits : m.TextsFit) {n : Nat} (h : n ≤ b.length) (hoctets : m.encode = .ok (b.take n)) :
    mainLink.decode b = .ok (some (m, n)) := by
  have hclear := transports_clear mainLink (by decide)
  have hfound := decode_encode hclear ⟨hm ▸ hk, ⟨_, hoctets⟩, hfits⟩ hoctets (b.drop n)
  rwa [List.take_append_drop, List.length_take_of_le h] at hfound

/-- An announcement is refused for what is wrong with its name. -/
theorem decode_of_name (h : 20 ≤ b.length) (hnumber : b.wordAt 0 = 0) {e : WireError}
    (he : e ≠ .truncated) (hname : (Read.run Read.utf16 ⟨20, b.drop 20⟩).1 = .error e) :
    mainLink.decode b = .error e := by
  rw [decode_of_identify (identify_announcement (by omega) hnumber),
    MessageKind.announcement_refused h hnumber hname]
  split
  · next hfound => cases hfound
  · next htruncated =>
    cases htruncated
    exact absurd rfl he
  · next hfailed =>
    cases hfailed
    rfl

/-- **What stands in front is answered so.** -/
theorem decode_of_mainFront (h : MainFront b a) : mainLink.decode b = a := by
  cases h with
  | short h =>
    have hpeek := MessageKind.peek_short (k := .serviceAnnouncement) h
    simp [decode, identify, mainLink, identifyIn, hpeek]
  | referenceCut h hnumber hcut =>
    have hid : mainLink.identify b = .ok (some .reference) := by simp [identify_mainLink h, hnumber]
    exact decode_of_cut hid (MessageKind.decode_cut rfl h hnumber MessageKind.fixed_reference
      MessageKind.settled_reference hcut)
  | reference h hnumber hoctets =>
    refine decode_of_encode (k := .reference) (by decide) rfl ?_ h hoctets
    simp [Message.TextsFit, Message.fields, Field.Fits]
  | requestCut h hnumber hcut =>
    have hid : mainLink.identify b = .ok (some .servicesRequest) := by
      simp [identify_mainLink h, hnumber]
    exact decode_of_cut hid (MessageKind.decode_cut rfl h hnumber MessageKind.fixed_servicesRequest
      MessageKind.settled_servicesRequest hcut)
  | request h hnumber hoctets =>
    refine decode_of_encode (k := .servicesRequest) (by decide) rfl ?_ h hoctets
    simp [Message.TextsFit, Message.fields, Field.Fits]
  | unknown h hnumber =>
    have hid : mainLink.identify b = .error (.unknownMessage b) := by
      rw [identify_mainLink h, if_neg (by omega), if_neg (by omega), if_neg (by omega)]
    simp [decode, hid]
  | announcement h hnumber hlim hname hoctets =>
    refine decode_of_encode (k := .serviceAnnouncement) (by decide) rfl ?_ h hoctets
    have hlen : ((b.drop 24).take (b.wordAt 20)).length ≤ frameLimit :=
      (List.length_take_le _ _).trans hlim
    simpa [Message.TextsFit, Message.fields, Field.Fits, hname] using hlen
  | lengthCut h hnumber hcut =>
    refine decode_of_cut (identify_announcement h hnumber) ?_
    by_cases htoken : b.length < 20
    · rw [MessageKind.decode_error_iff, MessageKind.reader_bare (k := .serviceAnnouncement) rfl h hnumber]
      refine Read.runsOut_bind.mpr (.inl (Read.fixed_token.runsOut Read.settled_token ?_))
      rw [Cursor.remaining_drop]
      omega
    · refine MessageKind.announcement_cut (by omega) hnumber (.inl (.inl ?_))
      rw [List.length_drop]
      omega
  | tooLarge h hnumber hlarge =>
    exact decode_of_name (by omega) hnumber (by simp) (MessageKind.name_tooLarge h hlarge)
  | nameCut h hnumber hlim hcut =>
    refine decode_of_cut (identify_announcement (by omega) hnumber)
      (MessageKind.announcement_cut (by omega) hnumber (.inl (.inr ⟨hlim, ?_⟩)))
    rw [List.length_drop]
    show _ < 4 + b.wordAt 20
    omega
  | oddName h hnumber hlim hodd =>
    refine decode_of_name (by omega) hnumber (by simp) ?_
    have hlen := MessageKind.length_name h
    rw [MessageKind.name_run h hlim, Read.textOfUnits, hlen, if_pos (by omega)]
    rfl
  | brokenName h hnumber hlim heven hbroken =>
    refine decode_of_name (by omega) hnumber (by simp) ?_
    have hlen := MessageKind.length_name h
    rw [MessageKind.name_run h hlim, Read.textOfUnits_lone (by rwa [hlen]) hbroken]
    rfl
  | portCut h hnumber hlim hname hcut =>
    refine decode_of_cut (identify_announcement (by omega) hnumber)
      (MessageKind.announcement_cut (by omega) hnumber
        (.inr ⟨_, MessageKind.textThen_name h hlim hname, ?_⟩))
    rw [List.length_drop]
    omega

theorem exists_fixed (h : 4 ≤ b.length) (hnumber : b.wordAt 0 = 1 ∨ b.wordAt 0 = 2) :
    ∃ a, MainFront b a := by
  obtain hnumber | hnumber := hnumber
  · by_cases hcut : b.length < 44
    · exact ⟨_, .referenceCut h hnumber hcut⟩
    obtain ⟨m, hkind, hoctets⟩ := MessageKind.exists_whole (k := .reference) (b := b) rfl hnumber
      MessageKind.fixed_reference (Nat.not_lt.mp hcut)
    cases m with
    | reference token target count => exact ⟨_, .reference (Nat.not_lt.mp hcut) hnumber hoctets⟩
    | _ => cases hkind
  · by_cases hcut : b.length < 20
    · exact ⟨_, .requestCut h hnumber hcut⟩
    obtain ⟨m, hkind, hoctets⟩ := MessageKind.exists_whole (k := .servicesRequest) (b := b) rfl hnumber
      MessageKind.fixed_servicesRequest (Nat.not_lt.mp hcut)
    cases m with
    | servicesRequest token => exact ⟨_, .request (Nat.not_lt.mp hcut) hnumber hoctets⟩
    | _ => cases hkind

theorem exists_announced (h : 4 ≤ b.length) (hnumber : b.wordAt 0 = 0) : ∃ a, MainFront b a := by
  by_cases hlength : b.length < 24
  · exact ⟨_, .lengthCut h hnumber hlength⟩
  by_cases hlarge : frameLimit < b.wordAt 20
  · exact ⟨_, .tooLarge (Nat.not_lt.mp hlength) hnumber hlarge⟩
  have hlim : b.wordAt 20 ≤ frameLimit := Nat.not_lt.mp hlarge
  by_cases hcut : b.length < 24 + b.wordAt 20
  · exact ⟨_, .nameCut (Nat.not_lt.mp hlength) hnumber hlim hcut⟩
  have hwhole : 24 + b.wordAt 20 ≤ b.length := Nat.not_lt.mp hcut
  by_cases hodd : b.wordAt 20 % 2 = 1
  · exact ⟨_, .oddName hwhole hnumber hlim hodd⟩
  by_cases htext : ∃ s : String, Utf16.encode s.toList = (b.drop 24).take (b.wordAt 20)
  · obtain ⟨service, hname⟩ := htext
    by_cases hport : b.length < 26 + b.wordAt 20
    · exact ⟨_, .portCut hwhole hnumber hlim hname hport⟩
    obtain ⟨token, port, hoctets⟩ :=
      MessageKind.exists_announcement (Nat.not_lt.mp hport) hnumber hlim hname
    exact ⟨_, .announcement (Nat.not_lt.mp hport) hnumber hlim hname hoctets⟩
  · exact ⟨_, .brokenName hwhole hnumber hlim (by omega) fun s hs => htext ⟨s, hs⟩⟩

/-- **Something stands in front of all octets.** -/
theorem exists_mainFront (b : Octets) : ∃ a, MainFront b a := by
  by_cases hshort : b.length < 4
  · exact ⟨_, .short hshort⟩
  have h : 4 ≤ b.length := Nat.not_lt.mp hshort
  by_cases hunknown : 2 < b.wordAt 0
  · exact ⟨_, .unknown h hunknown⟩
  by_cases hnumber : b.wordAt 0 = 0
  · exact exists_announced h hnumber
  · exact exists_fixed h (by omega)

theorem mainFront_iff : mainLink.decode b = a ↔ MainFront b a := by
  refine ⟨fun h => ?_, decode_of_mainFront⟩
  obtain ⟨a', ha'⟩ := exists_mainFront b
  rwa [← h, decode_of_mainFront ha']

/-- **No more octets are waited for than the longest announcement has.** -/
theorem length_of_waiting (h : mainLink.decode b = .ok none) : b.length < frameLimit + 26 := by
  have hlimit : frameLimit = 10485760 := rfl
  cases mainFront_iff.mp h with
  | short h | referenceCut _ _ h | requestCut _ _ h | lengthCut _ _ h => omega
  | nameCut _ _ hlim h | portCut _ _ hlim _ h => omega

end Catalog

namespace Inbox

/-- How an inbox goes on into which at most so many octets are read at a time: a message is taken off it,
or octets are read because there is none. -/
inductive Goes (n : Nat) : Inbox → Inbox → Prop
  | message {r rest : Inbox} {m : Message} (h : r.attempt = .message m rest) : Goes n r rest
  | fill {r : Inbox} (b : Octets) (h : r.attempt = .needMore) (hb : b.length ≤ n) : Goes n r (r.absorb b)

variable {n : Nat} {r r' : Inbox}

/-- **Octets are read only while fewer are at hand than the longest announcement has.** -/
theorem Goes.bounded (h : Goes n r r') (hmain : r.catalog = Catalog.mainLink)
    (hbound : r.buffered.length < frameLimit + 26 + n) :
    r'.catalog = Catalog.mainLink ∧ r'.buffered.length < frameLimit + 26 + n := by
  cases h with
  | message h =>
    have hless := attempt_message_length h
    exact ⟨(attempt_catalog h).trans hmain, by omega⟩
  | fill b h hb =>
    have hwaiting := attempt_needMore h
    rw [hmain] at hwaiting
    have hfew := Catalog.length_of_waiting hwaiting
    refine ⟨hmain, ?_⟩
    rw [absorb, List.length_append]
    omega

theorem bounded_of_goes (h : Relation.ReflTransGen (Goes n) { catalog := Catalog.mainLink } r) :
    r.catalog = Catalog.mainLink ∧ r.buffered.length < frameLimit + 26 + n := by
  induction h with
  | refl => exact ⟨rfl, by simp⟩
  | tail _ hstep ih => exact hstep.bounded ih.1 ih.2

end Inbox

namespace Catalog

/-- **Decoding on a main connection gives the answer to what stands in front, and no other.** It never
waits once as many octets are there as the longest announcement has, so that an inbox never holds more of
them than these and what one read may add. -/
theorem decode_mainLink_iff :
    (∀ b a, mainLink.decode b = a ↔ MainFront b a) ∧
      (∀ b : Octets, frameLimit + 26 ≤ b.length → mainLink.decode b ≠ .ok none) ∧
      ∀ (n : Nat) (r : Inbox), Relation.ReflTransGen (Inbox.Goes n) { catalog := mainLink } r →
        r.buffered.length < frameLimit + 26 + n := by
  refine ⟨fun b a => mainFront_iff, fun b hlong hnone => ?_, fun n r h => (Inbox.bounded_of_goes h).2⟩
  have hshort := length_of_waiting hnone
  omega

/-- An announcement whose name is half of a pair, in front of two octets more. -/
def halvedName : Octets :=
  List.replicate 20 0 ++ [0, 0, 0, 2, 0xD8, 0x34, 0xC3, 0x50]

theorem decode_mainLink_iff_halved : MainFront halvedName (.error (.encoding .loneSurrogate)) := by
  have h : mainLink.decode halvedName = .error (.encoding .loneSurrogate) := rfl
  exact (decode_mainLink_iff.1 _ _).mp h

end Catalog

end BoothLink
