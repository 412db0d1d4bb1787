/-!
# How connections are made

* `LinkOptions`: how long to wait for a device, how often to tell it that we are alive, and how many
  items may wait for their receiver.
-/

namespace BoothLink

/-- The options of connections, times in milliseconds. -/
structure LinkOptions where
  connectTimeout : UInt64 := 5000
  heartbeatInterval : UInt64 := 250
  capacity : UInt64 := 64
  deriving DecidableEq, Repr

end BoothLink
