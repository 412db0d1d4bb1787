import BoothLink.Wire.Field

/-!
# Messages

The ten messages that devices exchange: announcements of presence by datagram, services and
references on a main connection, states and beats on the connections of their services.

* `Message`, `MessageKind`: the messages and their kinds.
* `Action.wireText`, `Action.ofWire`: the two actions of an announcement and their texts.
* `Action.name`, `Action.ofName?`: their names.
-/

namespace BoothLink

/-- The port on which presence is announced. -/
def discoveryPort : UInt16 := 51337

/-- The name of the service that sends states. -/
def stateService : String := "StateMap"

/-- The name of the service that sends beats. -/
def beatService : String := "BeatInfo"

/-- What an announcement says about its sender. -/
inductive Action where
  /-- It is present. -/
  | howdy
  /-- It leaves. -/
  | exit
  deriving DecidableEq, Repr

namespace Action

def name : Action → String
  | howdy => "Howdy"
  | exit => "Exit"

def ofName? (s : String) : Option Action := [howdy, exit].find? (·.name = s)

/-- The text of an action on the wire. -/
def wireText : Action → String
  | howdy => "DISCOVERER_HOWDY_"
  | exit => "DISCOVERER_EXIT_"

/-- The action that a text stands for. -/
def ofWire (s : String) : Except WireError Action :=
  if s = wireText howdy then .ok howdy
  else if s = wireText exit then .ok exit
  else .error (.invalidAction s)

end Action

structure Announcement where
  token : Token
  /-- The name of the sender. -/
  source : String
  action : Action
  softwareName : String
  softwareVersion : String
  /-- The port of the sender's main connections. -/
  port : UInt16
  deriving DecidableEq

/-- The beat position of one deck. -/
structure DeckBeat where
  beat : Binary64
  totalBeats : Binary64
  bpm : Binary64
  deriving DecidableEq

/-- One sample of the beat clock. Only samples with as many timelines as decks can be written. -/
structure BeatSample where
  clock : UInt64
  decks : List DeckBeat
  timelines : List Binary64
  deriving DecidableEq

inductive Message where
  /-- A service is offered on a port. -/
  | serviceAnnouncement (token : Token) (service : String) (port : UInt16)
  /-- The sender is alive; the number counts these messages. -/
  | reference (token target : Token) (count : Int64)
  /-- The peer shall announce its services. -/
  | servicesRequest (token : Token)
  /-- Changes of a state shall be sent. -/
  | stateSubscribe (path : String) (interval : UInt32)
  /-- A state has a value, given as JSON text. -/
  | stateEmit (path json : String)
  /-- A subscription is acknowledged. -/
  | stateEmitResponse (path : String) (interval : UInt32)
  /-- Beats shall be sent. -/
  | beatStartStream
  /-- Beats shall no longer be sent. -/
  | beatStopStream
  | beatEmit (sample : BeatSample)
  | discovery (announcement : Announcement)
  deriving DecidableEq

inductive MessageKind where
  | serviceAnnouncement
  | reference
  | servicesRequest
  | stateSubscribe
  | stateEmit
  | stateEmitResponse
  | beatStartStream
  | beatStopStream
  | beatEmit
  | discovery
  deriving DecidableEq, Repr

namespace MessageKind

def all : List MessageKind :=
  [serviceAnnouncement, reference, servicesRequest, stateSubscribe, stateEmit, stateEmitResponse,
    beatStartStream, beatStopStream, beatEmit, discovery]

theorem mem_all (k : MessageKind) : k ∈ all := by cases k <;> decide

def name : MessageKind → String
  | serviceAnnouncement => "ServiceAnnouncement"
  | reference => "Reference"
  | servicesRequest => "ServicesRequest"
  | stateSubscribe => "StateSubscribe"
  | stateEmit => "StateEmit"
  | stateEmitResponse => "StateEmitResponse"
  | beatStartStream => "BeatStartStream"
  | beatStopStream => "BeatStopStream"
  | beatEmit => "BeatEmit"
  | discovery => "Discovery"

def ofName? (s : String) : Option MessageKind := all.find? (·.name = s)

end MessageKind

namespace Message

def kind : Message → MessageKind
  | serviceAnnouncement .. => .serviceAnnouncement
  | reference .. => .reference
  | servicesRequest .. => .servicesRequest
  | stateSubscribe .. => .stateSubscribe
  | stateEmit .. => .stateEmit
  | stateEmitResponse .. => .stateEmitResponse
  | beatStartStream => .beatStartStream
  | beatStopStream => .beatStopStream
  | beatEmit _ => .beatEmit
  | discovery _ => .discovery

end Message

end BoothLink
