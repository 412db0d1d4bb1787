import BoothLink.Discovery.Sighting

/-!
# How we take part in discovery

* `Target`: a place to which announcements go.
* `ListenerOptions`: who we are, where and how often we say so.
-/

namespace BoothLink

/-- A place to which announcements go. -/
inductive Target where
  | reachable
  /-- Every send there fails. -/
  | unreachable
  deriving DecidableEq, Repr

structure ListenerOptions where
  profile : Profile
  /-- The port on which announcements are heard, and to which they go. -/
  port : UInt16 := discoveryPort
  /-- The time between announcements in milliseconds. -/
  announceInterval : Nat := 1000
  /-- Where announcements go; to everyone on the local networks if nothing is said. -/
  targets : List Target := []
  deriving DecidableEq

end BoothLink
