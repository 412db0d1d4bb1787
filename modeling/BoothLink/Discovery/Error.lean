import BoothLink.Link.Error

/-!
# What can go wrong in discovery

* `DiscoveryError`, `DiscoveryError.name`, `DiscoveryError.message`, `DiscoveryError.isClosed`.
* `DiscoveryError.ofWire`: the error of a datagram that is no announcement.
-/

namespace BoothLink

inductive DiscoveryError where
  | io (kind : IoKind)
  | protocol (cause : WireError)
  /-- A datagram of fewer than four octets. -/
  | tooShort (octets : Nat)
  | invalidAction (text : String)
  | alreadyRunning
  | notRunning
  deriving DecidableEq, Repr

namespace DiscoveryError

/-- The error of octets that are no announcement. -/
def ofWire : WireError → DiscoveryError
  | .invalidAction text => invalidAction text
  | e => protocol e

/-- The name of an error, whatever it carries. -/
def name : DiscoveryError → String
  | io _ => "Io"
  | protocol _ => "Protocol"
  | tooShort _ => "TooShortMessage"
  | invalidAction _ => "InvalidDiscovererAction"
  | alreadyRunning => "AlreadyRunning"
  | notRunning => "NotRunning"

def message : DiscoveryError → String
  | io kind => "IO error: " ++ kind.message
  | protocol cause => "Protocol error: " ++ cause.message
  | tooShort octets =>
    "Too short discovery message received (" ++ toString octets ++ " bytes)"
  | invalidAction text => "Invalid discoverer action received: " ++ Text.quoted text
  | alreadyRunning => "Already running"
  | notRunning => "Not running"

/-- Whether nothing more can be sent or received. -/
def isClosed : DiscoveryError → Bool
  | io kind => kind ∈ [.notConnected, .brokenPipe]
  | notRunning => true
  | _ => false

end DiscoveryError

end BoothLink
