import BoothLink.Catalog
import BoothLink.Discovery.Device
import BoothLink.Discovery.Error

/-!
# Sightings

A datagram from the network either announces another device, or is our own announcement coming back,
or is no announcement at all.

* `Profile`: what we say of ourselves; `Profile.announcement`.
* `Profile.classify`: what a datagram is to us.
-/

namespace BoothLink

/-- What we say of ourselves. -/
structure Profile where
  identity : Identity
  /-- The port of our main connections, zero if we accept none. -/
  port : UInt16
  deriving DecidableEq

/-- A device that was seen, and whether it is there or leaves. -/
abbrev Sighting := Device × Presence

namespace Profile

/-- Our announcement of arrival or departure. -/
def announcement (p : Profile) (action : Action) : Announcement where
  token := p.identity.token
  source := p.identity.name
  action := action
  softwareName := p.identity.softwareName
  softwareVersion := p.identity.softwareVersion
  port := p.port

def message (p : Profile) (action : Action) : Message := .discovery (p.announcement action)

/-- The device that a datagram from an address is about; nothing if that is us. -/
def classify (p : Profile) (b : Octets) (source : Address) :
    Except DiscoveryError (Option Sighting) :=
  if b.length < 4 then .error (.tooShort b.length)
  else
    match Catalog.discovery.decodeDatagram b with
    | .error e => .error (.ofWire e)
    | .ok (.discovery a) =>
      let d := Device.ofAnnouncement source a
      .ok (if d.identity = p.identity then none else some (d, .ofAction a.action))
    | .ok _ => .error (.protocol (.unknownMessage b))

end Profile

end BoothLink
