import BoothLink.Discovery.Device

/-!
# Which devices are there

A registry holds the devices that have announced themselves and not left since, each as it was first
seen. An observation that changes which devices are there is an event.

* `Registry`, `Registry.observe`, `Registry.contains`, `Registry.listing`.
* `DiscoveryEvent`: a device has come or gone.
-/

namespace BoothLink

/-- A change in which devices are there. -/
inductive DiscoveryEvent where
  | found (d : Device)
  | lost (d : Device)
  deriving DecidableEq

/-- The devices that are there, in the order in which they came. -/
structure Registry where
  devices : List Device := []
  deriving DecidableEq

namespace Registry

/-- The device held with an identity. -/
def find? (r : Registry) (id : Identity) : Option Device := r.devices.find? (·.identity = id)

/-- Whether a device is there, wherever it was seen. -/
def contains (r : Registry) (d : Device) : Bool := (r.find? d.identity).isSome

def size (r : Registry) : Nat := r.devices.length

/-- Takes note of a sighting. A device that is there already is left as it was first seen. -/
def observe (r : Registry) (d : Device) (p : Presence) : Option DiscoveryEvent × Registry :=
  match p, r.find? d.identity with
  | .present, some _ => (none, r)
  | .present, none => (some (.found d), ⟨r.devices ++ [d]⟩)
  | .leaving, some held => (some (.lost held), ⟨r.devices.filter (·.identity ≠ d.identity)⟩)
  | .leaving, none => (none, r)

/-- The devices in the order of their identities. -/
def listing (r : Registry) : List Device :=
  r.devices.mergeSort fun d e => !e.identity.before d.identity

end Registry

end BoothLink
