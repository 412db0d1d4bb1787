import BoothLink.Console.Help
import BoothLink.Decimal.Fixed
import BoothLink.Discovery.Listener
import BoothLink.Link.BeatFeed
import BoothLink.Link.Dial
import BoothLink.Link.StateFeed
import BoothLink.Link.Visit
import BoothLink.Settings.Store

/-!
# Sessions on the console

A session carries a command line out: it loads the settings, and looks for devices, visits one of them or
shows the settings. What it prints are lines; an error ends it with a message.

* `Scene`: what a session meets with; `Outcome`: what comes of it.
* `Failure`: why it may end before its time.
* `Session.discover`, `states`, `beats`, `config`: the commands.
* `Session.run`: the session of a command line.
-/

namespace BoothLink.Console

/-- What a session meets with. -/
structure Scene where
  files : Files := {}
  /-- The name of this machine. -/
  hostName : String
  /-- The folder in which programs keep the user's settings. -/
  configFolder : Option String := none
  /-- A token that nobody else has. -/
  fresh : Token
  /-- How many seconds the clock of this machine has been running. -/
  uptime : Nat := 0
  /-- The datagrams that arrive, on a clock that starts when we listen. -/
  arrivals : List Arrival := []
  /-- What the device that we visit writes; without it nobody is there. -/
  host : Option Host := none

/-- What comes of a session. -/
structure Outcome where
  exitCode : Nat
  output : String
  error : Option String
  files : Files
  /-- What we have sent on the main connection to a device, and on that of a service. -/
  mainSent : Octets := []
  serviceSent : Octets := []

/-- What a session has done so far. -/
structure Session where
  files : Files
  /-- What has been printed, the last first. -/
  printed : List String := []
  mainSent : Octets := []
  serviceSent : Octets := []

/-- Why a session ends before its time. -/
inductive Failure where
  /-- An error, which is told. -/
  | told (message : String)
  /-- More than this machine can do: a time that its clock will never show, or a queue longer than any that
  can be made. -/
  | impossible
  deriving DecidableEq, Repr

/-- What is told of a failure. -/
def Failure.message? : Failure → Option String
  | told message => some message
  | impossible => none

/-- The exit code that a failure leads to. -/
def Failure.exitCode : Failure → Nat
  | told _ => 1
  | impossible => 101

/-- The last second that a clock can show. -/
def lastSecond : Nat := Nat.pow 2 63 - 1

/-- The most items that a queue can be made for. -/
def queueLimit : Nat := Nat.pow 2 61 - 1

/-- A part of a session, which may end it. -/
abbrev Act (α : Type) := ExceptT Failure (StateM Session) α

namespace Session

def line (s : String) : Act Unit := modify fun session => { session with printed := s :: session.printed }

/-- Ends the session with the message of an error. -/
def orFail {ε α : Type} (message : ε → String) : Except ε α → Act α
  | .ok a => pure a
  | .error e => throw (.told (message e))

/-- Goes on if something is possible. -/
def orAbort (possible : Bool) : Act Unit := if possible then pure () else throw .impossible

/-- The listener that settings ask for. -/
def listener (scene : Scene) (s : Settings) : Act Listener := do
  let options ← orFail Token.ParseError.message (s.listening 0)
  return Listener.bind options scene.fresh

/-! ## Devices -/

def eventText : DiscoveryEvent → String
  | .found d =>
    "+ " ++ d.text ++ " at " ++ d.endpoint.text ++ " (token " ++ d.identity.token.text ++ ")"
  | .lost d => "- " ++ d.text

/-- Whether an event is that of a device that has come. -/
def isFound : DiscoveryEvent → Bool
  | .found _ => true
  | .lost _ => false

def discover (scene : Scene) (s : Settings) (seconds : Option Nat) : Act Unit := do
  let timeout := (seconds.map (· * 1000)).getD s.discovery.timeout.toNat
  let l ← listener scene s
  let (_, l) := l.announceEvery (max s.discovery.announceInterval.toNat 1)
  orAbort (s.linking.capacity.toNat ≤ queueLimit)
  let (_, l) := l.startScan s.network.capacity.toNat
  line ("Scanning for StagelinQ devices (" ++ toString (timeout / 1000) ++ " seconds)...\n")
  orAbort (scene.uptime + timeout / 1000 ≤ lastSecond)
  let heard := scene.arrivals.filter (·.time < timeout)
  let (events, _) := l.events (heard.map (·.datagram))
  events.forM fun e => line (eventText e)
  line ("\nDiscovery complete, " ++ toString (events.countP isFound) ++ " device(s) found.")

/-- What is said when a search begins. -/
def lookingText : Option String → String
  | some name => "Looking for device '" ++ name ++ "'..."
  | none => "Looking for a device..."

/-- What is told of a search that found nothing for so many milliseconds. -/
def notFoundText (timeout : Nat) : String :=
  "No matching device found within " ++ toString (timeout / 1000) ++ " seconds"

/-- Announces us and searches for a device. -/
def findDevice (scene : Scene) (s : Settings) (l : Listener) (wanted : Option String) : Act Device := do
  let (announced, l) := l.announceEvery (max s.discovery.announceInterval.toNat 1)
  orFail DiscoveryError.message announced
  line (lookingText wanted)
  let timeout := s.discovery.timeout.toNat
  let found ← orFail DiscoveryError.message (l.profile.search wanted timeout 0 scene.arrivals).result
  match found with
  | some d => return d
  | none => throw (.told (notFoundText timeout))

/-! ## Services -/

/-- Opens a stream to a port of a machine on which something listens at one port at most. -/
def connect (options : LinkOptions) (listening : Option UInt16) (port : UInt16) : Act Unit := do
  let _ ← orFail LinkError.message (dial options (.atPort listening port))

/-- The device at the other end, if it can be reached. -/
def reach (scene : Scene) (options : LinkOptions) (d : Device) : Act Host := do
  connect options (scene.host.map (·.mainPort)) d.port
  match scene.host with
  | some host => return host
  | none => throw (.told (LinkError.message .closed))

/-- Asks a device for a service and connects to the first one with its name. -/
def askFor (token : Token) (d : Device) (service : String) (options : LinkOptions) (host : Host) :
    Act Unit := do
  let (services, link) ←
    orFail LinkError.message (MainLink.visit token d.identity.token [] options host)
  modify fun session => { session with mainSent := link.collect.1.1 }
  match services.find? (·.name = service) with
  | none => throw (.told (d.text ++ " does not offer the " ++ service ++ " service"))
  | some s => connect options (some host.servicePort) s.port

/-- What a visit to a service shows: the text above, one for each item, and a word at the end. -/
def visit {α : Type} (scene : Scene) (s : Settings) (wanted : Option String) (kind : FeedKind α)
    (requests farewell : List Message) (above : Device → String) (text : α → String) : Act Unit := do
  let l ← listener scene s
  let d ← findDevice scene s l wanted
  let options := s.linking
  let host ← reach scene options d
  let token := l.profile.identity.token
  askFor token d kind.service options host
  let feed ← orFail LinkError.message (Feed.start kind token host.localPort options.capacity.toNat)
  modify fun session => { session with serviceSent := feed.collect.1 }
  orAbort (options.capacity.toNat ≤ queueLimit)
  let feed ← orFail LinkError.message (feed.ask requests)
  line (above d)
  let harvest := feed.visit host
  harvest.items.forM fun x => line (text x)
  if !harvest.feed.fate.ended then line "\nDisconnecting..."
  else if harvest.cause.isNone then line (kind.service ++ " connection closed by the device.")
  let feed := farewell.foldl (fun feed m => (feed.send m).2) harvest.feed
  modify fun session => { session with serviceSent := feed.close.collect.1 }

def stateText (json : Bool) (s : State) : String :=
  if json then s.text else s.name ++ " = " ++ s.value.print

def states (scene : Scene) (s : Settings) (wanted : Option String) (paths : List String)
    (json : Bool) : Act Unit := do
  let paths := if paths.isEmpty then s.subscriptions else paths
  if paths.isEmpty then
    throw (.told "No state paths given. Use --path or add subscriptions to the config.")
  visit scene s wanted stateFeed (paths.map fun path => .stateSubscribe path 0) []
    (fun d => "Subscribed to " ++ toString paths.length ++ " state(s) on " ++ d.text ++
      ". Press Ctrl+C to stop.\n")
    (stateText json)

/-- The beat of one deck as it is shown. -/
def deckText (number : Nat) (deck : DeckBeat) (timeline : Binary64) : String :=
  "deck " ++ toString number ++ ": beat " ++ deck.beat.fixed 2 ++ "/" ++ deck.totalBeats.fixed 0 ++
    " @ " ++ deck.bpm.fixed 2 ++ " bpm, t=" ++ timeline.fixed 0

def sampleText (b : BeatSample) : String :=
  let decks := (b.decks.zip b.timelines).zipIdx.map fun ((deck, timeline), i) =>
    deckText (i + 1) deck timeline
  "[" ++ toString b.clock.toNat ++ "] " ++ " | ".intercalate decks

def beats (scene : Scene) (s : Settings) (wanted : Option String) : Act Unit :=
  visit scene s wanted beatFeed [.beatStartStream] [.beatStopStream]
    (fun d => "Streaming beats from " ++ d.text ++ ". Press Ctrl+C to stop.\n") sampleText

/-! ## Settings -/

def settingsText (s : Settings) : Act String :=
  match s.text? with
  | some text => pure text
  | none => throw (.told (SettingsError.message .serialize))

/-- Shows the settings, or shows or writes samples of them. -/
def config (s : Settings) (generate : Bool) (output : Option String) : Act Unit := do
  if generate then
    let text ← settingsText Settings.sample
    match output with
    | none => line text
    | some path =>
      let session ← get
      let files ← orFail FileFault.message (session.files.writeText path text)
      set { session with files }
      line ("Configuration written to: " ++ path)
  else line (← settingsText s)

/-- The settings of a session: those in the file that is named, which has to be right, or else those
that are found, or the defaults. -/
def settings (scene : Scene) : Option String → Act Settings
  | some path => orFail SettingsError.message (Settings.load scene.hostName scene.files path)
  | none =>
    match Settings.loadDefault scene.hostName scene.configFolder scene.files with
    | .ok s => pure s
    | .error _ => pure (Settings.default scene.hostName)

/-! ## Command lines -/

def perform (scene : Scene) (path : Option String) (command : Command) : Act Unit := do
  let s ← settings scene path
  match command with
  | .discover seconds => discover scene s seconds
  | .states device paths json => states scene s device paths json
  | .beats device => beats scene s device
  | .config generate output => config s generate output

def output (session : Session) : String :=
  String.join (session.printed.reverse.map (· ++ "\n"))

/-- What comes of a part of a session. -/
def outcome (scene : Scene) (act : Act Unit) : Outcome :=
  let (result, session) := act.run { files := scene.files }
  let (exitCode, error) := match result with
    | .ok () => (0, none)
    | .error failure => (failure.exitCode, failure.message?)
  { exitCode
    output := session.output
    error
    files := session.files
    mainSent := session.mainSent
    serviceSent := session.serviceSent }

/-- The session of a command line. A command line that is not understood has an exit code of its own. -/
def run (scene : Scene) (arguments : List String) : Outcome :=
  let text (exitCode : Nat) (output : String) : Outcome :=
    { exitCode, output, error := none, files := scene.files }
  match Request.ofArguments arguments with
  | .misuse => text 2 ""
  | .help topic => text 0 (helpText topic)
  | .version => text 0 versionText
  | .run path _ command => outcome scene (perform scene path command)

end Session

end BoothLink.Console
