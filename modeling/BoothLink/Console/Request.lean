import BoothLink.Console.Options

/-!
# What the command line asks for

A command line names one of four commands, each with options of its own; two options can be given before
the name as well as after it, and then the one after it counts. Help can be asked for everywhere, the
version before the name of a command.

* `CommandName`, `Command`: the commands, without and with what was given.
* `Request`, `Request.ofArguments`: what a command line asks for.
-/

namespace BoothLink.Console

inductive CommandName where
  | discover
  | states
  | beats
  | config
  deriving DecidableEq, Repr

/-- A command with what was given to it. -/
inductive Command where
  /-- List the devices that announce themselves, for so many seconds. -/
  | discover (seconds : Option Nat)
  /-- Show states of a device. -/
  | states (device : Option String) (paths : List String) (json : Bool)
  /-- Show the beats of a device. -/
  | beats (device : Option String)
  /-- Show the settings, or write samples of them. -/
  | config (generate : Bool) (output : Option String)
  deriving DecidableEq, Repr

/-- What help is about. -/
inductive Topic where
  | program
  | command (name : CommandName)
  /-- The command that gives help. -/
  | help
  deriving DecidableEq, Repr

/-- What a command line asks for. -/
inductive Request where
  | run (settings : Option String) (verbose : Bool) (command : Command)
  | help (topic : Topic)
  | version
  | misuse
  deriving DecidableEq, Repr

namespace OptionSpec

def settings : OptionSpec where
  long := "config"
  short := some 'c'
  takes := .path
  valueName := "CONFIG"
  place := 0
  about := "Path to configuration file"

def verbose : OptionSpec where
  long := "verbose"
  short := some 'v'
  takes := .nothing
  place := 1
  about := "Enable verbose output"

def help : OptionSpec where
  long := "help"
  short := some 'h'
  takes := .help
  place := 999
  about := "Print help"

def version : OptionSpec where
  long := "version"
  short := some 'V'
  takes := .version
  place := 999
  about := "Print version"

def timeout : OptionSpec where
  long := "timeout"
  short := some 't'
  takes := .count
  valueName := "TIMEOUT"
  place := 0
  about := "How long to scan (seconds)"

def device : OptionSpec where
  long := "device"
  short := some 'd'
  takes := .text
  valueName := "DEVICE"
  place := 0
  about := "Only connect to a device with this name"

def path : OptionSpec where
  long := "path"
  short := some 'p'
  takes := .text
  repeats := true
  valueName := "PATHS"
  place := 1
  about := "State path to subscribe to (repeatable, defaults to the configured subscriptions)"

def json : OptionSpec where
  long := "json"
  takes := .nothing
  place := 2
  about := "Print states as JSON lines"

def generate : OptionSpec where
  long := "generate"
  takes := .nothing
  place := 0
  about := "Generate sample configuration"

def output : OptionSpec where
  long := "output"
  short := some 'o'
  takes := .path
  valueName := "OUTPUT"
  place := 1
  about := "Output path for generated config"

end OptionSpec

namespace CommandName

def all : List CommandName := [discover, states, beats, config]

def text : CommandName → String
  | discover => "discover"
  | states => "states"
  | beats => "beats"
  | config => "config"

def about : CommandName → String
  | discover => "List devices announcing themselves on the network"
  | states => "Subscribe to state values of a device"
  | beats => "Stream beat information of a device"
  | config => "Show current configuration"

/-- The options of a command, with those that can be given everywhere. -/
def options (c : CommandName) : List OptionSpec :=
  let own := match c with
    | discover => [.timeout]
    | states => [.device, .path, .json]
    | beats => [.device]
    | config => [.generate, .output]
  own ++ [.settings, .verbose, .help]

def ofText? (s : String) : Option CommandName := all.find? (·.text = s)

end CommandName

/-- The options before the name of a command. -/
def programOptions : List OptionSpec := [.settings, .verbose, .help, .version]

/-- The word that asks for help on a command. -/
def helpWord : String := "help"

/-- The values that were given for an option. -/
def valuesOf (given : List Given) (spec : OptionSpec) : List String :=
  (given.filter (·.spec = spec)).map (·.value)

/-- A command with what was given. -/
def CommandName.withGiven (c : CommandName) (given : List Given) : Command :=
  let value (spec : OptionSpec) : Option String := (valuesOf given spec).getLast?
  let flag (spec : OptionSpec) : Bool := !(valuesOf given spec).isEmpty
  match c with
  | discover => .discover ((value .timeout).bind readCount?)
  | states => .states (value .device) (valuesOf given .path) (flag .json)
  | beats => .beats (value .device)
  | config => .config (flag .generate) (value .output)

namespace Request

/-- What is asked for instead of a command. -/
def ofStop (topic : Topic) : Stop → Request
  | .misuse => misuse
  | .help => help topic
  | .version => version

/-- The help that the words after the word for help ask for. -/
def ofHelpWords : List String → Request
  | [] => help .program
  | [word] =>
    if word = helpWord then help .help
    else
      match CommandName.ofText? word with
      | some c => help (.command c)
      | none => misuse
  | _ => misuse

/-- What is asked for by the arguments after the name of a command. The value of an option right before
the name is looked at last. -/
def ofCommand (before : OptionSpec.Progress) (c : CommandName) (arguments : List String) :
    Request :=
  match (OptionSpec.scan c.options [] {} arguments).bind (·.1.settle) with
  | .error e => ofStop (.command c) e
  | .ok after =>
    match before.settle with
    | .error e => ofStop .program e
    | .ok before =>
      let given := before.done ++ after.done
      run (valuesOf given .settings).getLast? (!(valuesOf given .verbose).isEmpty)
        (c.withGiven after.done)

/-- What a command line asks for. -/
def ofArguments (arguments : List String) : Request :=
  match OptionSpec.scan programOptions (helpWord :: CommandName.all.map CommandName.text) {}
      arguments with
  | .error e => ofStop .program e
  | .ok (_, none) => misuse
  | .ok (before, some (word, rest)) =>
    match CommandName.ofText? word with
    | some c => ofCommand before c rest
    | none => ofHelpWords rest

end Request

end BoothLink.Console
