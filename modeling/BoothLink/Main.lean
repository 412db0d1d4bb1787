import BoothLink.Console.Session

/-!
# The program

Carries a command line out among the files of this machine: gathers the files that a session can meet
with, prints what the session prints and leaves the file that it writes. The network is silent here, so a
search for devices ends without one.

* `main`.
-/

namespace BoothLink.Console

/-- The beginnings of a path, each with the way that it names. -/
def stages (path : String) : List (String × Way) :=
  let names := Way.split path
  (List.range names.length).map fun n =>
    let names := names.take (n + 1)
    ((if path.startsWith "/" then "/" else "") ++ "/".intercalate names,
      names.foldl Way.onward (Way.start path))

/-- Files with what is found at the end of a way. -/
def gatherStage (files : Files) : String × Way → IO Files
  | (path, way) => do
    try
      let found ← IO.FS.realPath path
      if ← found.isDir then
        return if (files.entry? way).isSome then files else files.put way (.folder [])
      return files.put way (.plain (← IO.FS.readBinFile path).toList)
    catch _ => return files

/-- Files with what is found on the way to a path. -/
def gather (files : Files) (path : String) : IO Files := (stages path).foldlM gatherStage files

/-- The paths that a session may look at. -/
def pathsOf (configFolder : Option String) : Request → List String
  | .run settings _ command =>
    let output := match command with
      | .config true (some path) => [path]
      | _ => []
    settings.toList ++ Settings.searchPaths configFolder ++ output
  | _ => []

/-- The folder of the user's settings. -/
def userFolder : IO (Option String) := do
  match ← IO.getEnv "XDG_CONFIG_HOME" with
  | some folder => if folder.startsWith "/" then return some folder
  | none => pure ()
  return (← IO.getEnv "HOME").map (· ++ "/.config")

/-- The name of this machine; one without a name goes by that of the program. -/
def machineName : IO String := do
  try
    return (← IO.FS.readFile "/etc/hostname").trimAscii.toString
  catch _ => return programName

/-- A token that nobody else has. -/
def drawToken : IO Token := do
  let octets ← IO.getRandomBytes 16
  return (Token.ofOctets? octets.toList).getD Token.zero

/-- Leaves the file that a session has written. -/
def leave (outcome : Outcome) : Request → IO Unit
  | .run _ _ (.config true (some path)) => do
    if outcome.error.isNone then
      match outcome.files.read path with
      | .ok content => IO.FS.writeBinFile path (ByteArray.mk content.toArray)
      | .error _ => pure ()
  | _ => pure ()

end BoothLink.Console

open BoothLink BoothLink.Console in
def main (arguments : List String) : IO UInt32 := do
  let request := Request.ofArguments arguments
  let configFolder ← userFolder
  let files ← (pathsOf configFolder request).foldlM gather {}
  let outcome := Session.run
    { files, hostName := ← machineName, configFolder, fresh := ← drawToken,
      uptime := (← IO.monoMsNow) / 1000 } arguments
  try
    leave outcome request
    IO.print outcome.output
    match outcome.error with
    | some message => IO.eprintln ("Error: " ++ message)
    | none => pure ()
    return UInt32.ofNat outcome.exitCode
  catch e =>
    IO.eprintln ("Error: " ++ toString e)
    return 1
