import BoothLink.Message.Basic
import BoothLink.Net.Address

/-!
# Devices

A device is known from its announcements. Its token, its name and the name and version of its software
make up its identity; the address and port at which it was seen may change.

* `Device`, `Device.identity`, `Device.same`.
* `Presence`, `Presence.name`: what an announcement says of a device.
* `Device.ofAnnouncement`: the device that an announcement from an address is about.
-/

namespace BoothLink

/-- Whether a device is on the network or leaves it. -/
inductive Presence where
  | present
  | leaving
  deriving DecidableEq, Repr

def Presence.name : Presence → String
  | present => "Present"
  | leaving => "Leaving"

/-- What the action of an announcement says of its sender. -/
def Presence.ofAction : Action → Presence
  | .howdy => present
  | .exit => leaving

/-- What makes a device the device it is. -/
structure Identity where
  token : Token
  name : String
  softwareName : String
  softwareVersion : String
  deriving DecidableEq

/-- Whether an identity comes before another: by token, then by name, then by software. -/
def Identity.before (i j : Identity) : Bool :=
  if i.token ≠ j.token then i.token < j.token
  else if i.name ≠ j.name then i.name < j.name
  else if i.softwareName ≠ j.softwareName then i.softwareName < j.softwareName
  else i.softwareVersion < j.softwareVersion

/-- A device seen on the network. -/
structure Device where
  address : Address
  /-- The port of its main connections. -/
  port : UInt16
  identity : Identity
  deriving DecidableEq

namespace Device

/-- The device that an announcement from an address is about. -/
def ofAnnouncement (address : Address) (a : Announcement) : Device :=
  ⟨address, a.port, ⟨a.token, a.source, a.softwareName, a.softwareVersion⟩⟩

/-- The endpoint of its main connections. -/
def endpoint (d : Device) : Endpoint := ⟨d.address, d.port⟩

def text (d : Device) : String :=
  d.identity.name ++ " (" ++ d.identity.softwareName ++ " " ++ d.identity.softwareVersion ++ ")"

/-- Whether two sightings are of one device. -/
def same (d e : Device) : Bool := d.identity = e.identity

end Device

end BoothLink
