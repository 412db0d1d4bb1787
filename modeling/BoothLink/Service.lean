/-!
# Services

A device offers its states, its beats and whatever else it has as services, each under a name and on a
port of its own.

* `Service`, `Service.text`.
-/

namespace BoothLink

/-- A service that a device offers on a port. -/
structure Service where
  name : String
  port : UInt16
  deriving DecidableEq, Repr

def Service.text (s : Service) : String := s.name ++ " (port " ++ toString s.port.toNat ++ ")"

end BoothLink
