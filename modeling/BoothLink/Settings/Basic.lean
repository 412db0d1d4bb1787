import BoothLink.Discovery.Options
import BoothLink.Link.Options
import BoothLink.Token

/-!
# Settings

What can be set: how we present ourselves, how devices are looked for, how connections are made, and
which states are subscribed to. Everything has a default; that of our name is the name of this machine.

* `Settings`, `Settings.default`, `Settings.sample`.
* `Settings.token`: the token that is set.
* `Settings.listening`, `Settings.linking`: the options of listeners and connections.
* `SettingsError`, `SettingsError.name`, `SettingsError.message`.
-/

namespace BoothLink

/-- How we present ourselves. -/
structure IdentitySettings where
  name : String
  softwareName : String := "stagelinq"
  softwareVersion : String := "0.1.0"
  /-- The text of our token; without it each run has a fresh one. -/
  token : Option String := none
  deriving DecidableEq, Repr

/-- How devices are looked for, times in milliseconds. -/
structure DiscoverySettings where
  port : UInt16 := discoveryPort
  announceInterval : UInt64 := 1000
  /-- How long we look for devices. -/
  timeout : UInt64 := 5000
  deriving DecidableEq, Repr

/-- What can be set. -/
structure Settings where
  identity : IdentitySettings
  discovery : DiscoverySettings := {}
  network : LinkOptions := {}
  /-- The paths of the states to subscribe to. -/
  subscriptions : List String := []
  deriving DecidableEq, Repr

namespace Settings

/-- The settings of a machine on which nothing is set. -/
def default (hostName : String) : Settings := { identity := { name := hostName } }

/-- Settings that show what can be set. -/
def sample : Settings where
  identity := { name := "booth-laptop", token := some "f405dc14022347f58b792c8c49335276" }
  subscriptions := [
    "/Engine/Deck1/Play", "/Engine/Deck1/CurrentBPM",
    "/Engine/Deck2/Play", "/Engine/Deck2/CurrentBPM"]

/-- The token that is set, or the one that stands for none. -/
def token (s : Settings) : Except Token.ParseError Token :=
  match s.identity.token with
  | some text => Token.parse text
  | none => .ok Token.zero

/-- The options of a listener that offers a port for main connections. -/
def listening (s : Settings) (port : UInt16) : Except Token.ParseError ListenerOptions :=
  s.token.map fun token =>
    { profile :=
        ⟨⟨token, s.identity.name, s.identity.softwareName, s.identity.softwareVersion⟩, port⟩
      port := s.discovery.port
      announceInterval := max s.discovery.announceInterval.toNat 1 }

/-- The options of connections; an interval or a capacity of zero is taken for one. -/
def linking (s : Settings) : LinkOptions :=
  { s.network with
    heartbeatInterval := max s.network.heartbeatInterval 1
    capacity := max s.network.capacity 1 }

end Settings

/-- What can go wrong with settings. -/
inductive SettingsError where
  | io (message : String)
  /-- The file is no TOML, or says something else than settings. -/
  | parse
  /-- A number is too large for a file. -/
  | serialize
  | notFound (path : String)
  | invalidToken (e : Token.ParseError)
  deriving DecidableEq, Repr

/-- The name of an error, whatever it carries. -/
def SettingsError.name : SettingsError → String
  | io _ => "Io"
  | parse => "Parse"
  | serialize => "Serialize"
  | notFound _ => "NotFound"
  | invalidToken _ => "InvalidToken"

def SettingsError.message : SettingsError → String
  | io message => "IO error: " ++ message
  | parse => "Parse error: invalid settings"
  | serialize => "Serialize error: number out of range"
  | notFound path => "Config file not found: " ++ path
  | invalidToken e => e.message

end BoothLink
