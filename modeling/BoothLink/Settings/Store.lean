import BoothLink.Files
import BoothLink.Settings.Printer
import BoothLink.Settings.Reader

/-!
# Settings in files

Settings are read from a file that is named, or else from the first that is there of the user's own,
one named for this program and one with a general name in the folder in which we work. A token in them
has to be one.

* `Settings.load`, `Settings.loadDefault`.
* `Settings.save`: the files after settings have been written.
-/

namespace BoothLink.Settings

/-- The settings in a text, if their token is one. -/
def read (hostName text : String) : Except SettingsError Settings :=
  match parse hostName text with
  | none => .error .parse
  | some s =>
    match s.token with
    | .ok _ => .ok s
    | .error e => .error (.invalidToken e)

def load (hostName : String) (files : Files) (path : String) : Except SettingsError Settings :=
  if !files.contains path then .error (.notFound path)
  else
    match files.readText path with
    | .error e => .error (.io e.message)
    | .ok text => read hostName text

/-- Where settings are looked for, in order; the user's own are in a folder that may be unknown. -/
def searchPaths (configFolder : Option String) : List String :=
  (configFolder.map (· ++ "/stagelinq/config.toml")).toList ++ ["./stagelinq.toml", "./config.toml"]

/-- The settings in the first file that is there, or the defaults. -/
def loadDefault (hostName : String) (configFolder : Option String) (files : Files) :
    Except SettingsError Settings :=
  match (searchPaths configFolder).find? files.contains with
  | some path => load hostName files path
  | none => .ok (Settings.default hostName)

/-- Writes settings to a file, with all folders on the way to it. -/
def save (s : Settings) (files : Files) (path : String) : Except SettingsError Files :=
  match s.text? with
  | none => .error .serialize
  | some text =>
    match (files.makeFolders path).bind (·.writeText path text) with
    | .ok files => .ok files
    | .error e => .error (.io e.message)

end BoothLink.Settings
