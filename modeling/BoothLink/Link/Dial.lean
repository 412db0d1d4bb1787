import BoothLink.Link.Error
import BoothLink.Link.Options

/-!
# Connecting

* `Reception`, `Reception.atPort`: how the other side takes an attempt to connect.
* `dial`: the stream that comes of it.
-/

namespace BoothLink

/-- How an attempt to connect is taken, so many milliseconds later. -/
inductive Reception where
  | accepted (delay : Nat)
  | refused (delay : Nat)
  | unanswered
  deriving DecidableEq, Repr

/-- How an attempt to connect to a port is taken when something listens at one port at most. -/
def Reception.atPort (listening : Option UInt16) (port : UInt16) : Reception :=
  if listening = some port then .accepted 0 else .refused 0

/-- A stream that has been opened. -/
structure OpenStream where
  /-- What is written is sent at once, however short. -/
  noDelay : Bool
  deriving DecidableEq, Repr

/-- An attempt to connect, given up after the time that the options set. -/
def dial (options : LinkOptions) : Reception → Except LinkError OpenStream
  | .accepted delay => if delay ≤ options.connectTimeout.toNat then .ok ⟨true⟩ else .error .timeout
  | .refused delay =>
    if delay ≤ options.connectTimeout.toNat then .error (.io .connectionRefused)
    else .error .timeout
  | .unanswered => .error .timeout

end BoothLink
