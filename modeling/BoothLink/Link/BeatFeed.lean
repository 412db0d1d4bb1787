import BoothLink.Link.Feed

/-!
# Beat connections

On the connection of the beat service the device sends a sample of its beat clock many times a second,
from when we start the stream until we stop it.

* `beatFeed`: the service and what its messages bring.
* `BeatFeed`, `BeatFeed.startStream`, `BeatFeed.stopStream`.
-/

namespace BoothLink

/-- The sample that a message brings. -/
def BeatSample.ofMessage : Message → Except WireError (Option BeatSample)
  | .beatEmit sample => .ok (some sample)
  | _ => .ok none

/-- The service that brings beats. -/
def beatFeed : FeedKind BeatSample := ⟨beatService, Catalog.beatInfo, BeatSample.ofMessage⟩

abbrev BeatFeed := Feed BeatSample

namespace BeatFeed

/-- Asks for beats. -/
def startStream (f : BeatFeed) : Except LinkError Unit × BeatFeed := f.send .beatStartStream

/-- Asks for no more beats. -/
def stopStream (f : BeatFeed) : Except LinkError Unit × BeatFeed := f.send .beatStopStream

end BeatFeed

end BoothLink
