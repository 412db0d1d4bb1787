import BoothLink.Message.Encode
import BoothLink.Link.Error
import BoothLink.Service

/-!
# Negotiating services

What one end of a main connection keeps track of. Each end offers services and announces them at the
start and whenever the other asks. An answer has no end of its own: whoever asked collects
announcements until the next reference, the message that both ends send regularly to say that they are
alive. Only one request may be on its way at a time.

* `Negotiation`, `Progress`: the state of one end, and how far its last request is.
* `Negotiation.request`, `requestFailed`, `dispatch`, `beat`, `endReading`: the events, each with the
  state after it and what is to be sent or answered.
* `Negotiation.lastServices`: the services that the last request found.
-/

namespace BoothLink

/-- How far the last request for services is. -/
inductive Progress where
  /-- There was none, or it failed. -/
  | idle
  /-- A call waits; these services have been announced since. -/
  | collecting (call : Nat) (found : List Service)
  | completed (services : List Service)
  deriving DecidableEq, Repr

/-- The state of one end of a main connection. -/
structure Negotiation where
  /-- Our token. -/
  token : Token
  /-- The token of the device at the other end. -/
  target : Token
  offered : List Service
  progress : Progress := .idle
  /-- The number that our next reference carries. -/
  nextCount : Int64 := 0
  /-- The number in the last reference that arrived. -/
  peerCount : Option Int64 := none
  /-- Nothing is read any more. -/
  ended : Bool := false

namespace Negotiation

/-- The announcement of a service. -/
def announcement (s : Negotiation) (service : Service) : Message :=
  .serviceAnnouncement s.token service.name service.port

/-- The announcements of all services that we offer. -/
def announcements (s : Negotiation) : List Message := s.offered.map s.announcement

/-- The services that the last request found, while it is the last. -/
def lastServices (s : Negotiation) : Option (List Service) :=
  match s.progress with
  | .completed services => some services
  | _ => none

/-- A call asks for services. It is refused once nothing is read any more, or while another waits. -/
def request (s : Negotiation) (call : Nat) : Except LinkError (Negotiation × Message) :=
  if s.ended then .error .closed
  else
    match s.progress with
    | .collecting .. => .error .alreadyInFlight
    | _ => .ok ({ s with progress := .collecting call [] }, .servicesRequest s.token)

/-- The request could not be sent. -/
def requestFailed (s : Negotiation) : Negotiation := { s with progress := .idle }

/-- What a message from the peer leads to. -/
structure Dispatched where
  state : Negotiation
  /-- The call that is answered, with its services. -/
  answer : Option (Nat × List Service) := none
  /-- What is sent in return. -/
  replies : List Message := []

/-- A message from the peer. An announcement counts only while a call waits, and a reference ends
the waiting. -/
def dispatch (s : Negotiation) : Message → Dispatched
  | .serviceAnnouncement _ name port =>
    match s.progress with
    | .collecting call found =>
      { state := { s with progress := .collecting call (found ++ [⟨name, port⟩]) } }
    | _ => { state := s }
  | .reference _ _ count =>
    let s := { s with peerCount := some count }
    match s.progress with
    | .collecting call found =>
      { state := { s with progress := .completed found }, answer := some (call, found) }
    | _ => { state := s }
  | .servicesRequest _ => { state := s, replies := s.announcements }
  | _ => { state := s }

/-- Our next reference, and the state after it. The number is used up even if it cannot be sent. -/
def beat (s : Negotiation) : Negotiation × Message :=
  ({ s with nextCount := s.nextCount + 1 }, .reference s.token s.target s.nextCount)

/-- Nothing is read any more: a waiting call will not be answered, and its services are dropped. Gives
the call that has to be told so. -/
def endReading (s : Negotiation) : Negotiation × Option Nat :=
  match s.progress with
  | .collecting call _ => ({ s with ended := true, progress := .idle }, some call)
  | _ => ({ s with ended := true }, none)

end Negotiation

end BoothLink
