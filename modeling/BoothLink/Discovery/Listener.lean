import BoothLink.Discovery.Options
import BoothLink.Discovery.Search
import BoothLink.Message.Encode
import BoothLink.Ticker

/-!
# Listening and announcing

A listener shares the discovery port: it announces us, once or again and again, and hears the
announcements of others, one at a time or in a scan. When it is closed, a recurring announcement ends
with our departure.

* `Listener`, `AnnounceState`, `AnnounceState.text`.
* `Listener.announce`, `unannounce`, `announceEvery`: what we say.
* `Listener.discover`, `startScan`, `nextEvent`, `events`: what we hear.
* `Listener.advance`, `wait`: the clock jumps or runs on, and due announcements are sent.
* `Listener.close`.
-/

namespace BoothLink

/-- What we last told the network about ourselves. -/
inductive AnnounceState where
  | idle
  | announcing (p : Presence)
  deriving DecidableEq, Repr

/-- What we last told the network, in words. -/
def AnnounceState.text : AnnounceState → String
  | idle => "Idle"
  | announcing p => "Announcing(" ++ p.name ++ ")"

/-- The most octets that a datagram can carry. -/
def datagramLimit : Nat := 65507

/-- A participant in discovery. -/
structure Listener where
  profile : Profile
  targets : List Target
  announceState : AnnounceState := .idle
  /-- Recurring announcements. -/
  announcer : Option Ticker := none
  scan : Option Scan := none
  /-- Datagrams that have arrived and have not been read. -/
  incoming : List Datagram := []
  closed : Bool := false
  /-- The time on the clock, in milliseconds. -/
  now : Nat := 0
  /-- The datagrams that reached a target and have not been taken yet. -/
  sent : List Octets := []

namespace Listener

/-- A listener with options, which gets a fresh token if it has none. -/
def bind (options : ListenerOptions) (fresh : Token) : Listener :=
  let token := options.profile.identity.token.orFresh fresh
  { profile := { options.profile with identity := { options.profile.identity with token } }
    targets := options.targets }

/-! ## Announcing -/

/-- Whether a datagram of so many octets gets to a target. -/
def Target.takes (t : Target) (size : Nat) : Bool := t = .reachable && size ≤ datagramLimit

/-- Sends our announcement to every target. It fails if there are targets and none takes it. -/
def send (l : Listener) (action : Action) : Except DiscoveryError Unit × Listener :=
  match (l.profile.message action).encode with
  | .error e => (.error (.ofWire e), l)
  | .ok b =>
    let taken := l.targets.filter (Target.takes · b.length)
    let l := { l with sent := l.sent ++ taken.map fun _ => b }
    (if taken.isEmpty && !l.targets.isEmpty then .error (.io .other) else .ok (), l)

/-- Announces our presence once. -/
def announce (l : Listener) : Except DiscoveryError Unit × Listener :=
  { l with announceState := .announcing .present }.send .howdy

/-- Announces our departure. -/
def unannounce (l : Listener) : Except DiscoveryError Unit × Listener :=
  let (r, l) := { l with announceState := .announcing .leaving }.send .exit
  (r, { l with announceState := .idle })

/-- Announces our presence now and again at an interval, until the listener is closed. The next time has
to be one that a clock can show (`Console.lastSecond`): beyond that the recurring announcements are
aborted, which is left out here. -/
def announceEvery (l : Listener) (interval : Nat) : Except DiscoveryError Unit × Listener :=
  if l.closed then (.error .notRunning, l)
  else if l.announcer.isSome then (.error .alreadyRunning, l)
  else
    match Ticker.every? interval l.now with
    | none => (.error (.io .invalidInput), l)
    | some ticker => (.ok (), { l.announce.2 with announcer := some ticker })

/-- The time becomes another, and as many announcements are sent as a rule for tickers says. -/
def moveTo (l : Listener) (now : Nat) (rule : Ticker → Nat → Nat × Ticker) : Listener :=
  match l.announcer with
  | none => { l with now }
  | some ticker =>
    let (due, ticker) := rule ticker now
    due.repeat (fun l => (l.send .howdy).2) { l with now, announcer := some ticker }

/-- The clock jumps, and then the announcements that are due are sent. -/
def advance (l : Listener) (milliseconds : Nat) : Listener :=
  l.moveTo (l.now + milliseconds) Ticker.fires

/-- The clock runs on, and every announcement is sent when it is due. -/
def wait (l : Listener) (milliseconds : Nat) : Listener :=
  l.moveTo (l.now + milliseconds) Ticker.runs

/-! ## Hearing -/

/-- Lets a scan read what it can. -/
def settle (l : Listener) : Listener :=
  match l.scan with
  | none => l
  | some s =>
    let (s, incoming) := s.drain l.profile l.incoming
    { l with scan := some s, incoming }

def deliver (l : Listener) (d : Datagram) : Listener :=
  { l with incoming := l.incoming ++ [d] }.settle

/-- What a datagram is to us. -/
def classify (l : Listener) (d : Datagram) : Except DiscoveryError (Option Sighting) :=
  l.profile.classify d.octets d.source

/-- Waits for the announcement of another device, and gives what else is heard in its place. If
nothing has arrived, the time passes. The end of the time has to be one that a clock can show
(`Console.lastSecond`): a call with a longer time is aborted, which is left out here. -/
def discover (l : Listener) (timeout : Nat) :
    Except DiscoveryError (Option Sighting) × Listener :=
  let heard := l.profile.hear (l.now + timeout) l.now (l.incoming.map fun d => ⟨l.now, d⟩)
  let l := { l with incoming := heard.rest.map (·.datagram) }
  match heard.result with
  | some r => (r.map some, l)
  | none => (.ok none, l.wait timeout)

/-- Starts to scan. There can be one scan only. Its queue has to be one that can be made
(`Console.queueLimit`): a call for a longer one is aborted, which is left out here. -/
def startScan (l : Listener) (capacity : Nat) : Except DiscoveryError Unit × Listener :=
  if l.closed then (.error .notRunning, l)
  else if l.scan.isSome then (.error .alreadyRunning, l)
  else (.ok (), { l with scan := some (.start capacity) }.settle)

/-- Asks for the next event of the scan. An event taken makes room for the next one. -/
def nextEvent (l : Listener) : Scan.Received × Listener :=
  match l.scan with
  | none => (.notScanning, l)
  | some s =>
    let (r, s) := s.receive
    (r, { l with scan := some s }.settle)

/-- The events that datagrams bring to a scan whose events are taken at once. -/
def events (l : Listener) : List Datagram → List DiscoveryEvent × Listener
  | [] => ([], l)
  | d :: ds =>
    match (l.deliver d).nextEvent with
    | (.event e, l) =>
      let (more, l) := events l ds
      (e :: more, l)
    | (_, l) => events l ds

/-- Gives the receiving end of the scan up. -/
def dropEvents (l : Listener) : Listener :=
  { l with scan := l.scan.map Scan.abandon }.settle

/-! ## The end -/

/-- Ends the scan and the recurring announcements, the latter with our departure. -/
def close (l : Listener) : Except DiscoveryError Unit × Listener :=
  if l.closed then (.error .notRunning, l)
  else
    let l := if l.announcer.isSome then l.unannounce.2 else l
    (.ok (), { l with closed := true, announcer := none, scan := l.scan.map Scan.stop })

/-- Takes the datagrams sent so far. -/
def collect (l : Listener) : List Octets × Listener := (l.sent, { l with sent := [] })

end Listener

end BoothLink
