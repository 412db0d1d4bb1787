import BoothLink.Link.Feed
import BoothLink.State

/-!
# State connections

On the connection of the state service we subscribe to paths, and the device sends the value of each of
them whenever it changes, as a JSON text. We may send states as well.

* `stateFeed`: the service and what its messages bring.
* `StateFeed`, `StateFeed.subscribe`, `StateFeed.emit`.
-/

namespace BoothLink

/-- The state that a message brings; a value that is no JSON is an error. -/
def State.ofMessage : Message → Except WireError (Option State)
  | .stateEmit path json =>
    match Json.parse json with
    | .ok value => .ok (some ⟨path, value⟩)
    | .error fault => .error (.json fault)
  | _ => .ok none

def State.message (s : State) : Message := .stateEmit s.name s.value.print

/-- The service that brings states. -/
def stateFeed : FeedKind State := ⟨stateService, Catalog.stateMap, State.ofMessage⟩

abbrev StateFeed := Feed State

namespace StateFeed

/-- Asks for the changes of a state, with an interval that is handed on as it is. -/
def subscribe (f : StateFeed) (path : String) (interval : UInt32) :
    Except LinkError Unit × StateFeed :=
  f.send (.stateSubscribe path interval)

def emit (f : StateFeed) (s : State) : Except LinkError Unit × StateFeed := f.send s.message

end StateFeed

end BoothLink
