import BoothLink.Settings.Basic
import BoothLink.Toml.Reader

/-!
# Reading settings

Each group of settings is a table. What a table does not mention has its default, and what is not a
setting is passed over. A group may also be a list of the values of its settings in their order; then
the token has to be there. A date has no settings in it.

* `Toml.column?`: the values of a group.
* `Settings.ofFields`: the settings in the fields of a file.
* `Settings.parse`: the settings in a text.
-/

namespace BoothLink

namespace Toml

/-- A string and nothing else. -/
def text? : Toml → Option String
  | text s => some s
  | _ => none

/-- A whole number below a limit, and not negative. -/
def nat? (limit : Nat) : Toml → Option Nat
  | int (.ofNat n) => if n < limit then some n else none
  | _ => none

def word16? (v : Toml) : Option UInt16 := (v.nat? (Nat.pow 2 16)).map UInt16.ofNat

def word64? (v : Toml) : Option UInt64 := (v.nat? (Nat.pow 2 64)).map UInt64.ofNat

def texts? : Toml → Option (List String)
  | list items => items.mapM text?
  | _ => none

/-- The values of a group, by their places and keys. -/
def column? : Toml → Option (Nat → String → Option Toml)
  | table fields => some fun _ key => fields.lookup key
  | list items => some fun place _ => items[place]?
  | moment _ => some fun _ _ => none
  | _ => none

/-- What is read from a value, or a default if it is not there. -/
def orDefault {α : Type} (read : Toml → Option α) (default : α) : Option Toml → Option α
  | none => some default
  | some v => read v

end Toml

/-- How we present ourselves, as a value says. -/
def IdentitySettings.ofToml (hostName : String) (v : Toml) : Option IdentitySettings := do
  let column ← v.column?
  let token := column 3 "token"
  if v matches .list _ && token.isNone then none
  else
    let base : IdentitySettings := { name := hostName }
    return {
      name := ← Toml.orDefault Toml.text? base.name (column 0 "name")
      softwareName := ← Toml.orDefault Toml.text? base.softwareName (column 1 "software_name")
      softwareVersion :=
        ← Toml.orDefault Toml.text? base.softwareVersion (column 2 "software_version")
      token := ← Toml.orDefault (fun v => v.text?.map some) base.token token }

/-- How devices are looked for, as a value says. -/
def DiscoverySettings.ofToml (v : Toml) : Option DiscoverySettings := do
  let column ← v.column?
  let base : DiscoverySettings := {}
  return {
    port := ← Toml.orDefault Toml.word16? base.port (column 0 "port")
    announceInterval :=
      ← Toml.orDefault Toml.word64? base.announceInterval (column 1 "announce_interval_ms")
    timeout := ← Toml.orDefault Toml.word64? base.timeout (column 2 "timeout_ms") }

/-- How connections are made, as a value says. -/
def LinkOptions.ofToml (v : Toml) : Option LinkOptions := do
  let column ← v.column?
  let base : LinkOptions := {}
  return {
    connectTimeout :=
      ← Toml.orDefault Toml.word64? base.connectTimeout (column 0 "connect_timeout_ms")
    heartbeatInterval :=
      ← Toml.orDefault Toml.word64? base.heartbeatInterval (column 1 "heartbeat_interval_ms")
    capacity := ← Toml.orDefault Toml.word64? base.capacity (column 2 "channel_capacity") }

namespace Settings

/-- The settings in the fields of a file. -/
def ofFields (hostName : String) (fields : List (String × Toml)) : Option Settings := do
  let base := Settings.default hostName
  return {
    identity := ←
      Toml.orDefault (IdentitySettings.ofToml hostName) base.identity (fields.lookup "identity")
    discovery := ←
      Toml.orDefault DiscoverySettings.ofToml base.discovery (fields.lookup "discovery")
    network := ← Toml.orDefault LinkOptions.ofToml base.network (fields.lookup "network")
    subscriptions := ←
      Toml.orDefault Toml.texts? base.subscriptions (fields.lookup "subscriptions") }

def parse (hostName s : String) : Option Settings := (Toml.parse s).bind (ofFields hostName)

end Settings

end BoothLink
