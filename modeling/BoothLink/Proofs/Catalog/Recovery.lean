import BoothLink.Proofs.Catalog.Growing
import BoothLink.Proofs.Message.Apart

/-!
# Messages recovered from a stream

On every transport the messages that were written one after the other are found again, one after the
other, and a message that has not arrived whole waits for the rest. This rests on two things: what a
message begins with tells its kind from those that its catalog tries before, and a beginning of a message
is never a message.

* `Catalog.Clear`: every kind of a catalog turns the messages of those after it down.
* `Catalog.deviceStates`, `Catalog.deviceBeats`: what a device reads on the connections of its services.
* `Catalog.Carries`: a message that a transport brings.
* `Catalog.decode_encode`, `Catalog.decode_beginning`: a message in front, and the beginning of one.
* **`Catalog.decodeAll_stream`**: messages are recovered in order, and a beginning is left as it is.
-/

namespace BoothLink

namespace Catalog

/-! ## The transports -/

/-- What a device reads on a state connection: our announcement and every state message. -/
def deviceStates : Catalog :=
  ⟨"device", [.serviceAnnouncement, .stateSubscribe, .stateEmit, .stateEmitResponse]⟩

/-- What a device reads on a beat connection: our announcement and every beat message. -/
def deviceBeats : Catalog :=
  ⟨"device", [.serviceAnnouncement, .beatStartStream, .beatStopStream, .beatEmit]⟩

/-- The catalogs of all transports, of both ends. -/
def transports : List Catalog :=
  [mainLink, stateMap, beatInfo, discovery, deviceStates, deviceBeats]

/-- Every kind turns the messages of those after it down. -/
def Clear (catalog : Catalog) : Prop := catalog.kinds.Pairwise fun k k' => k.apart k' = true

instance (catalog : Catalog) : Decidable catalog.Clear := by unfold Clear; infer_instance

theorem transports_clear : ∀ catalog ∈ transports, catalog.Clear := by decide

/-- A message that is sent over a transport and can be read at its other end. -/
structure Carries (catalog : Catalog) (m : Message) : Prop where
  kind_mem : m.kind ∈ catalog.kinds
  encodes : ∃ b, m.encode = .ok b
  textsFit : m.TextsFit

/-! ## One message -/

variable {catalog : Catalog}

theorem identifyIn_encode {ks : List MessageKind}
    (hclear : ks.Pairwise fun k k' => k.apart k' = true) {m : Message} (hm : m.kind ∈ ks)
    {b : Octets} (h : m.encode = .ok b) (rest : Octets) :
    identifyIn (b ++ rest) ks = .ok (some m.kind) := by
  induction ks with
  | nil => cases hm
  | cons k ks ih =>
    obtain ⟨hhead, htail⟩ := List.pairwise_cons.mp hclear
    rw [identifyIn]
    by_cases hk : m.kind = k
    · rw [← hk, Message.peek_encode h]
    · have hmem : m.kind ∈ ks := (List.mem_cons.mp hm).resolve_left hk
      rw [Message.peek_apart h (hhead _ hmem)]
      exact ih htail hmem

/-- A beginning of a message is taken for none, or for one of its kind. -/
theorem identifyIn_beginning {ks : List MessageKind}
    (hclear : ks.Pairwise fun k k' => k.apart k' = true) {m : Message} (hm : m.kind ∈ ks)
    {b t : Octets} (h : m.encode = .ok b) (ht : t <+: b) :
    identifyIn t ks = .ok none ∨ identifyIn t ks = .ok (some m.kind) := by
  induction ks with
  | nil => cases hm
  | cons k ks ih =>
    obtain ⟨hhead, htail⟩ := List.pairwise_cons.mp hclear
    rw [identifyIn]
    obtain hmore | hsame := Message.peek_beginning (k := k) ht
    · rw [hmore]
      exact .inl rfl
    · rw [hsame, ← List.append_nil b]
      by_cases hk : m.kind = k
      · rw [← hk, Message.peek_encode h]
        exact .inr rfl
      · have hmem : m.kind ∈ ks := (List.mem_cons.mp hm).resolve_left hk
        rw [Message.peek_apart h (hhead _ hmem)]
        exact ih htail hmem

/-- **The message in front is found**, whatever comes behind it. -/
theorem decode_encode (hclear : catalog.Clear) {m : Message} (hm : catalog.Carries m) {b : Octets}
    (h : m.encode = .ok b) (rest : Octets) :
    catalog.decode (b ++ rest) = .ok (some (m, b.length)) := by
  have hid : catalog.identify (b ++ rest) = .ok (some m.kind) :=
    identifyIn_encode hclear hm.kind_mem h rest
  have hdec : m.kind.decode (b ++ rest) = .ok (m, b.length) := by
    rw [MessageKind.decode, Cursor.start, Message.takes_reader h hm.textsFit 0 rest, Nat.zero_add]
  rw [decode_of_identify hid, hdec]

/-- **A proper beginning of a message is neither a message nor an error.** -/
theorem decode_beginning (hclear : catalog.Clear) {m : Message} (hm : catalog.Carries m)
    {b t : Octets} (h : m.encode = .ok b) (ht : t <+: b) (hne : t ≠ b) :
    catalog.decode t = .ok none := by
  obtain hnone | hkind := identifyIn_beginning hclear hm.kind_mem h ht
  · rw [decode, identify, hnone]
  · have htrunc := (Message.takes_reader h hm.textsFit).truncated m.kind.settled_reader ht hne 0
    rw [decode_of_identify hkind, MessageKind.decode_error_iff.mpr htrunc]

/-- A datagram is what decoding finds at its front, and nothing in it may be missing. -/
theorem decodeDatagram_of_decode {b : Octets} {found : Option (Message × Nat)}
    (h : catalog.decode b = .ok found) : catalog.decodeDatagram b =
      match found with
      | some (m, _) => .ok m
      | none => .error .truncated := by
  unfold decode at h
  unfold decodeDatagram
  split at h
  · cases h
  · cases h
    rfl
  · split at h
    · next hk =>
      cases h
      rw [hk]
      rfl
    · next hk =>
      cases h
      rw [hk]
      rfl
    · cases h

/-- **A datagram with a message is that message**, whatever comes behind it. -/
theorem decodeDatagram_encode (hclear : catalog.Clear) {m : Message} (hm : catalog.Carries m)
    {b : Octets} (h : m.encode = .ok b) (rest : Octets) :
    catalog.decodeDatagram (b ++ rest) = .ok m :=
  decodeDatagram_of_decode (decode_encode hclear hm h rest)

/-- **A datagram with a part of a message is truncated.** -/
theorem decodeDatagram_beginning (hclear : catalog.Clear) {m : Message} (hm : catalog.Carries m)
    {b t : Octets} (h : m.encode = .ok b) (ht : t <+: b) (hne : t ≠ b) :
    catalog.decodeDatagram t = .error .truncated :=
  decodeDatagram_of_decode (decode_beginning hclear hm h ht hne)

/-! ## Many messages -/

/-- A message with the number of its octets. -/
def counted (m : Message) : Message × Nat := (m, (Message.stream [m]).length)

theorem yields_stream (hclear : catalog.Clear) {ms : List Message}
    (hms : ∀ m ∈ ms, catalog.Carries m) (t : Octets) :
    catalog.Yields (Message.stream ms ++ t) (ms.map counted) t := by
  induction ms with
  | nil => exact .done t
  | cons m ms ih =>
    obtain ⟨hm, hrest⟩ := List.forall_mem_cons.mp hms
    obtain ⟨b, hb⟩ := hm.encodes
    have hone : Message.stream [m] = b := Message.stream_singleton hb
    have hall : Message.stream (m :: ms) ++ t = b ++ (Message.stream ms ++ t) := by
      rw [← hone, ← List.append_assoc, ← Message.stream_append, List.singleton_append]
    rw [hall, List.map_cons, counted, hone]
    refine .step (decode_encode hclear hm hb _) ?_
    rw [List.drop_left]
    exact ih hrest

/-- What does not hold a message yet is left over behind those that were sent. -/
theorem decodeAll_stream_append (hclear : catalog.Clear) {ms : List Message}
    (hms : ∀ m ∈ ms, catalog.Carries m) {t : Octets} (ht : catalog.decode t = .ok none) :
    catalog.decodeAll (Message.stream ms ++ t) = (ms.map counted, .needMore, t) := by
  rw [(yields_stream hclear hms t).decodeAll_eq, decodeAll_of_none ht, List.append_nil]

/-- **Messages are recovered in order from what was sent**, and the beginning of one more is left as it
is: no beginning of a message is decoded or refused. -/
theorem decodeAll_stream {catalog : Catalog} (hcat : catalog ∈ transports) {ms : List Message}
    (hms : ∀ m ∈ ms, catalog.Carries m) {last : Message} (hlast : catalog.Carries last)
    {b t : Octets} (hb : last.encode = .ok b) (ht : t <+: b) (hne : t ≠ b) :
    catalog.decodeAll (Message.stream ms ++ t) = (ms.map counted, .needMore, t) ∧
      catalog.decode t = .ok none := by
  have hclear := transports_clear catalog hcat
  have hnone := decode_beginning hclear hlast hb ht hne
  exact ⟨decodeAll_stream_append hclear hms hnone, hnone⟩

/-- An announcement and a state in front of another state, of which the path has not arrived whole. -/
theorem decodeAll_stream_states :
    deviceStates.decodeAll (Message.stream [.serviceAnnouncement .zero "StateMap" 50123,
        .stateEmit "/𝄞" "1"] ++ [0, 0, 0, 20, 0x73, 0x6D, 0x61, 0x61, 0, 0, 0x07, 0xD2, 0, 0, 0, 4, 0]) =
      ([(.serviceAnnouncement .zero "StateMap" 50123, 42), (.stateEmit "/𝄞" "1", 28)], .needMore,
        [0, 0, 0, 20, 0x73, 0x6D, 0x61, 0x61, 0, 0, 0x07, 0xD2, 0, 0, 0, 4, 0]) := by
  have hcat : deviceStates ∈ transports := by decide
  have hms : ∀ m ∈ [Message.serviceAnnouncement .zero "StateMap" 50123, .stateEmit "/𝄞" "1"],
      deviceStates.Carries m := by
    intro m hm
    simp only [List.mem_cons, List.not_mem_nil, or_false] at hm
    rcases hm with rfl | rfl
    · exact ⟨by decide, ⟨_, rfl⟩, by decide⟩
    · exact ⟨by decide, ⟨_, rfl⟩, by decide⟩
  have hlast : deviceStates.Carries (.stateSubscribe "/a" 7) := ⟨by decide, ⟨_, rfl⟩, by decide⟩
  exact (decodeAll_stream hcat hms hlast rfl ⟨[0x2F, 0, 0x61, 0, 0, 0, 7], rfl⟩ (by decide)).1

end Catalog

end BoothLink
