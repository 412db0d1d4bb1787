import BoothLink.Console.Request

/-!
# Help

An overview of the program, of a command, or of the command that gives help: what it does, how it is
used, and its commands and options. Options stand in the order of their places, and those in one place
in the order of their letters.

* `helpText`: the help on a topic.
* `versionText`.
-/

namespace BoothLink.Console

/-- The name by which the program is called. -/
def programName : String := "stagelinq"

/-- The name and the version of the program. -/
def versionText : String := programName ++ " 0.1.0\n"

/-- What decides between options in one place: the letter, a small one before its capital. -/
def OptionSpec.sortKey (o : OptionSpec) : String :=
  match o.short with
  | some c => String.ofList [c.toLower, if c.isLower then '0' else '1']
  | none => o.long

/-- Whether an option stands before another in an overview. -/
def OptionSpec.before (a b : OptionSpec) : Bool :=
  a.place < b.place || (a.place = b.place && a.sortKey ≤ b.sortKey)

/-- An option as it is written on a command line. -/
def OptionSpec.usage (o : OptionSpec) : String :=
  let short := match o.short with
    | some c => String.ofList ['-', c, ',', ' ']
    | none => "    "
  short ++ "--" ++ o.long ++ (if o.valueName = "" then "" else " <" ++ o.valueName ++ ">")

/-- Lines of two columns. -/
def columns (rows : List (String × String)) : String :=
  let width := (rows.map (·.1.length)).foldl max 0
  String.join (rows.map fun (left, right) =>
    "  " ++ left ++ String.ofList (List.replicate (width - left.length + 2) ' ') ++ right ++ "\n")

def optionsText (specs : List OptionSpec) : String :=
  "Options:\n" ++ columns ((specs.mergeSort OptionSpec.before).map fun o => (o.usage, o.about))

/-- What the command that gives help does. -/
def helpAbout : String := "Print this message or the help of the given subcommand(s)"

def helpText : Topic → String
  | .program =>
    "Discover StagelinQ devices and stream their state\n\nUsage: " ++ programName ++
      " [OPTIONS] <COMMAND>\n\nCommands:\n" ++
      columns ((CommandName.all.map fun c => (c.text, c.about)) ++ [(helpWord, helpAbout)]) ++ "\n" ++
      optionsText programOptions
  | .command c =>
    c.about ++ "\n\nUsage: " ++ programName ++ " " ++ c.text ++ " [OPTIONS]\n\n" ++
      optionsText c.options
  | .help =>
    helpAbout ++ "\n\nUsage: " ++ programName ++ " " ++ helpWord ++ " [COMMAND]...\n\nArguments:\n" ++
      columns [("[COMMAND]...", "Print help for the subcommand(s)")]

end BoothLink.Console
