import BoothLink.Message.Layout
import BoothLink.Wire.Buffer

/-!
# Writing messages

A message is written as a whole or not at all: first its fields, then, for a frame, the length in
front, which may not pass the limit.

* `Message.fields`: the row of fields of a message.
* `Message.encode`: its octets.
* `Message.putBody`, `Message.putWhole`: a message field by field, in buffers of its own.
* `Message.append`: a message behind what a buffer holds.
* `Message.stream`: the octets of messages one after the other.
-/

namespace BoothLink

def DeckBeat.fields (d : DeckBeat) : List Field := [.f64 d.beat, .f64 d.totalBeats, .f64 d.bpm]

def BeatSample.fields (s : BeatSample) : List Field :=
  .u64 s.clock :: .u32 (UInt32.ofNat s.decks.length) ::
    (s.decks.flatMap DeckBeat.fields ++ s.timelines.map .f64)

def Announcement.fields (a : Announcement) : List Field :=
  [.token a.token, .utf16 a.source, .utf16 a.action.wireText, .utf16 a.softwareName,
    .utf16 a.softwareVersion, .u16 a.port]

namespace Message

def fields : Message → List Field
  | serviceAnnouncement token service port => [.token token, .utf16 service, .u16 port]
  | reference token target count => [.token token, .token target, .i64 count]
  | servicesRequest token => [.token token]
  | stateSubscribe path interval => [.utf16 path, .u32 interval]
  | stateEmit path json => [.utf16 path, .utf16 json]
  | stateEmitResponse path interval => [.utf16 path, .u32 interval]
  | beatStartStream | beatStopStream => []
  | beatEmit sample => sample.fields
  | discovery announcement => announcement.fields

/-- What has to hold of a message before any field is written: a sample has a timeline for each deck,
and no more decks than a field can count. -/
def countsFit : Message → Except WireError Unit
  | beatEmit s =>
    if s.decks.length ≠ s.timelines.length then
      .error (.countMismatch s.decks.length s.timelines.length)
    else if lengthLimit < s.decks.length then .error (.tooLarge s.decks.length lengthLimit)
    else .ok ()
  | _ => .ok ()

/-- A frame around its content. -/
def frame (body : Octets) : Except WireError Octets :=
  let size := body.length
  if frameLimit < size then .error (.tooLarge size frameLimit)
  else .ok (Octets.ofNat 4 size ++ body)

/-- The words and fields of a message, without the length of its frame. -/
def body (m : Message) : Except WireError Octets :=
  match m.countsFit with
  | .error e => .error e
  | .ok () => (Field.writeAll m.fields).map (m.kind.framing.opening.flatten ++ ·)

def encode (m : Message) : Except WireError Octets :=
  match m.body with
  | .error e => .error e
  | .ok b => if m.kind.framing.isFrame then frame b else .ok b

/-- Writes the words and fields of a message one after the other. -/
def putBody (m : Message) : Write :=
  match m.countsFit with
  | .error e => Write.fail e
  | .ok () => Write.each (m.kind.framing.opening.map Write.put ++ m.fields.map Field.put)

/-- Writes a frame around its content. -/
def putFrame (content : Buffer) : Write :=
  let size := content.size
  if frameLimit < size then Write.fail (.tooLarge size frameLimit)
  else (Write.put (Octets.ofNat 4 size)).andThen (Write.put content.toList)

/-- Writes a message with its framing. The content of a frame is written to a buffer of its own, since
its length comes first. -/
def putWhole (m : Message) : Write :=
  if m.kind.framing.isFrame then
    match m.putBody.run #[] with
    | (.error e, _) => Write.fail e
    | (.ok (), content) => putFrame content
  else m.putBody

/-- Writes a message behind what a buffer holds. It is written to an empty buffer first, and added when
all of it is there. -/
def append (m : Message) : Write := fun buffer =>
  match m.putWhole.run #[] with
  | (.error e, _) => (.error e, buffer)
  | (.ok (), octets) => (.ok (), buffer ++ octets)

theorem run_append (m : Message) (buffer : Buffer) :
    m.append.run buffer =
      match m.putWhole.run #[] with
      | (.error e, _) => (.error e, buffer)
      | (.ok (), octets) => (.ok (), buffer ++ octets) := rfl

/-- The octets of messages one after the other; one that cannot be encoded is left out. -/
def stream (messages : List Message) : Octets :=
  messages.flatMap fun m => m.encode.toOption.getD []

theorem stream_append (ms ns : List Message) : stream (ms ++ ns) = stream ms ++ stream ns :=
  List.flatMap_append

theorem stream_singleton {m : Message} {b : Octets} (h : m.encode = .ok b) : stream [m] = b := by
  simp [stream, h, Except.toOption]

end Message

end BoothLink
