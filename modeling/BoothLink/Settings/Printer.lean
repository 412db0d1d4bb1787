import BoothLink.Settings.Basic
import BoothLink.Toml.Printer

/-!
# Writing settings

The subscriptions come first, and then a table for each group, with all its settings in their order. A
token that is not set is left out.

* `Settings.text?`: the text of settings; there is none if a number is too large for a file.
-/

namespace BoothLink

open Toml

def Settings.textEntry (key s : String) : List Char := writeEntry key (writeText s.toList)

def Settings.natEntry? (key : String) (n : Nat) : Option (List Char) :=
  (writeNat? n).map (writeEntry key)

/-- The table of how we present ourselves. -/
def IdentitySettings.chars (s : IdentitySettings) : List Char :=
  writeHeader "identity" ++ Settings.textEntry "name" s.name ++
    Settings.textEntry "software_name" s.softwareName ++
    Settings.textEntry "software_version" s.softwareVersion ++
    (s.token.map (Settings.textEntry "token")).getD []

/-- The table of how devices are looked for. -/
def DiscoverySettings.chars? (s : DiscoverySettings) : Option (List Char) := do
  let port ← Settings.natEntry? "port" s.port.toNat
  let interval ← Settings.natEntry? "announce_interval_ms" s.announceInterval.toNat
  let timeout ← Settings.natEntry? "timeout_ms" s.timeout.toNat
  return writeHeader "discovery" ++ port ++ interval ++ timeout

/-- The table of how connections are made. -/
def LinkOptions.chars? (s : LinkOptions) : Option (List Char) := do
  let connect ← Settings.natEntry? "connect_timeout_ms" s.connectTimeout.toNat
  let heartbeat ← Settings.natEntry? "heartbeat_interval_ms" s.heartbeatInterval.toNat
  let capacity ← Settings.natEntry? "channel_capacity" s.capacity.toNat
  return writeHeader "network" ++ connect ++ heartbeat ++ capacity

namespace Settings

def chars? (s : Settings) : Option (List Char) := do
  let discovery ← s.discovery.chars?
  let network ← s.network.chars?
  return writeEntry "subscriptions" (writeTexts s.subscriptions) ++ s.identity.chars ++ discovery ++
    network

def text? (s : Settings) : Option String := s.chars?.map String.ofList

end Settings

end BoothLink
