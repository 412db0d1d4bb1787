import BoothLink.Message.Layout

/-!
# Reading messages

Each kind has one reader. A frame is taken off as a whole first and its content read for itself, so
that octets left over in it are passed over and nothing is read beyond it.

* `MessageKind.reader`: the read that takes a message of a kind off a cursor.
* `MessageKind.decode`: the message at the front of octets, and how many of them it is.
-/

namespace BoothLink

namespace Read

/-- Takes a frame off and reads its content for itself. -/
def framed {α : Type} (r : Read α) : Read α := do
  let content ← counted
  match (r.run (Cursor.start content)).1 with
  | .ok a => give a
  | .error e => fail e

/-- Takes expected words off, one after the other. -/
def expectAll : List Octets → Read Unit
  | [] => pure ()
  | w :: ws => do expect w; expectAll ws

/-- Reads so many values into a list. -/
def times {α : Type} (r : Read α) : (n : Nat) → (done : List α) → Read (List α)
  | 0, done => pure done.reverse
  | n + 1, done => do
    let a ← r
    times r n (a :: done)

def deck : Read DeckBeat := do
  let beat ← f64
  let totalBeats ← f64
  let bpm ← f64
  return ⟨beat, totalBeats, bpm⟩

/-- How many octets a deck and a timeline take. -/
def deckWidth : Nat := 24
def timelineWidth : Nat := 8

/-- Makes sure that so many records of a width are ahead. -/
def ensure (records width : Nat) : Read Unit := do
  let remaining := (← ahead).length
  if remaining < records * width then fail (.malformedBeat records remaining) else pure ()

/-- Reads a sample. The decks and the timelines are each checked against what is left of the frame
before the first of them is read. -/
def beatSample : Read BeatSample := do
  let clock ← u64
  let records := (← u32).toNat
  ensure records deckWidth
  let decks ← times deck records []
  ensure records timelineWidth
  let timelines ← times f64 records []
  return ⟨clock, decks, timelines⟩

/-- Reads an announcement. Its action is looked at after all fields have been read. -/
def announcement : Read Announcement := do
  let token ← token
  let source ← utf16
  let action ← utf16
  let softwareName ← utf16
  let softwareVersion ← utf16
  let port ← u16
  match Action.ofWire action with
  | .ok action => return ⟨token, source, action, softwareName, softwareVersion, port⟩
  | .error e => fail e

end Read

namespace MessageKind

def fieldsReader : MessageKind → Read Message
  | serviceAnnouncement => do
    let token ← Read.token
    let service ← Read.utf16
    return .serviceAnnouncement token service (← Read.u16)
  | reference => do
    let token ← Read.token
    let target ← Read.token
    return .reference token target (← Read.i64)
  | servicesRequest => return .servicesRequest (← Read.token)
  | stateSubscribe => do
    let path ← Read.utf16
    return .stateSubscribe path (← Read.u32)
  | stateEmit => do
    let path ← Read.utf16
    return .stateEmit path (← Read.utf16)
  | stateEmitResponse => do
    let path ← Read.utf16
    return .stateEmitResponse path (← Read.u32)
  | beatStartStream => return .beatStartStream
  | beatStopStream => return .beatStopStream
  | beatEmit => return .beatEmit (← Read.beatSample)
  | discovery => return .discovery (← Read.announcement)

/-- Reads the opening words and the fields of a message. -/
def bodyReader (k : MessageKind) : Read Message := do
  Read.expectAll k.framing.opening
  k.fieldsReader

/-- Reads a message with its framing. -/
def reader (k : MessageKind) : Read Message :=
  if k.framing.isFrame then Read.framed k.bodyReader else k.bodyReader

/-- The message of a kind at the front of octets, with the number of octets it takes. -/
def decode (k : MessageKind) (b : Octets) : Except WireError (Message × Nat) :=
  match k.reader.run (Cursor.start b) with
  | (.ok m, c) => .ok (m, c.position)
  | (.error e, _) => .error e

end MessageKind

end BoothLink
