import BoothLink.Proofs.Discovery.Moves
import BoothLink.Proofs.Discovery.Sighted
import BoothLink.Proofs.Machine

/-!
# What a scan brings

A scan gives whoever receives from it the changes that the datagrams bring to a registry, in order and each
once: what is no announcement, or our own, says nothing, and neither does the arrival of a device that is
there or the departure of one that is not. How many events the queue holds and when they are received makes
no difference to what they are.

* `Registry.watching`, `Registry.after`, `Registry.changes`: a registry that sees one sighting after the
  other.
* `Registry.held_observe`, `Registry.holds_observe`, `Registry.observe_event`: what one sighting changes for an
  identity.
* `Profile.changes`: the changes that datagrams bring; `Profile.Silent`: a datagram that brings none.
* `Scan.Keeps`, `Scan.Keeps.drain`: between any two acts, where the changes of the datagrams that have been
  read are.
* `Listener.Scans`, `Listener.Scans.after`: a listener that scans, whatever else happens to it.
* **`Listener.scan_brings_changes`**: what is received from a scan, and the laws of it.
-/

namespace BoothLink

/-! ## Registries -/

namespace DiscoveryEvent

/-- The device that an event is about. -/
def device : DiscoveryEvent → Device
  | found d | lost d => d

def isFound : DiscoveryEvent → Bool
  | found _ => true
  | lost _ => false

/-- Whether an event is about a device with this identity. -/
def isAbout (id : Identity) (e : DiscoveryEvent) : Bool := e.device.identity = id

/-- Arrivals and departures by turns, beginning with an arrival. -/
def Alternate (es : List DiscoveryEvent) : Prop := ∀ i e, es[i]? = some e → e.isFound = decide (i % 2 = 0)

theorem Alternate.snoc {es : List DiscoveryEvent} {e : DiscoveryEvent} (h : Alternate es)
    (he : e.isFound = decide (es.length % 2 = 0)) : Alternate (es ++ [e]) := by
  intro i e' hi
  rw [List.getElem?_append] at hi
  split at hi
  · exact h i e' hi
  · next hlen =>
    -- Behind the list there is only the event at its end.
    rw [List.getElem?_singleton, Option.ite_none_right_eq_some] at hi
    obtain ⟨hlast, hi⟩ := hi
    obtain rfl : i = es.length := by omega
    obtain rfl := Option.some.inj hi
    exact he

end DiscoveryEvent

namespace Registry

/-- A registry that sees one sighting after the other. -/
def watching : Machine Registry Sighting := ⟨fun _ _ => True, fun r s => (r.observe s.1 s.2).2⟩

/-- The registry after some sightings. -/
def after (r : Registry) (ss : List Sighting) : Registry := watching.after r ss

/-- The events that sightings bring, in order. -/
def changes (r : Registry) (ss : List Sighting) : List DiscoveryEvent :=
  watching.along (fun r s => (r.observe s.1 s.2).1.toList) r ss

/-- What is held of an identity. -/
def held (r : Registry) (id : Identity) : List Device := r.devices.filter (·.identity = id)

/-- Whether a device with this identity is there. -/
def holds (r : Registry) (id : Identity) : Bool := (r.find? id).isSome

variable {r : Registry} {d e : Device} {p : Presence} {id : Identity} {ss ts : List Sighting}

theorem changes_append : r.changes (ss ++ ts) = r.changes ss ++ (r.after ss).changes ts :=
  Machine.along_append _

theorem changes_snoc {s : Sighting} : r.changes (ss ++ [s]) =
    r.changes ss ++ ((r.after ss).observe s.1 s.2).1.toList := Machine.along_snoc _

theorem after_append : r.after (ss ++ ts) = (r.after ss).after ts := Machine.after_append

theorem identity_of_find? (h : r.find? id = some e) : e.identity = id := by
  simpa using List.find?_some h

theorem find?_eq_head? : r.find? id = (r.held id).head? := by rw [held, List.head?_filter, find?]

theorem held_nil_iff : r.held id = [] ↔ r.find? id = none := by
  rw [find?_eq_head?, List.head?_eq_none_iff]

theorem held_added : held ⟨r.devices ++ [d]⟩ id = r.held id ++ if d.identity = id then [d] else [] := by
  simp only [held, List.filter_append, List.filter_singleton, Bool.cond_decide]

theorem held_removed : held ⟨r.devices.filter (·.identity ≠ d.identity)⟩ id =
    if d.identity = id then [] else r.held id := by
  rw [held, List.filter_filter]
  split
  · next h =>
    rw [List.filter_eq_nil_iff]
    simp [← h]
  · next h =>
    refine List.filter_congr fun x _ => ?_
    by_cases hx : x.identity = id
    · simp [hx, Ne.symm h]
    · simp [hx]

/-- **What a sighting changes in what is held**: a device that leaves is held no longer, and one that arrives
is held if none of its identity was. -/
theorem held_observe (r : Registry) (d : Device) (p : Presence) (id : Identity) :
    (r.observe d p).2.held id =
      if d.identity ≠ id then r.held id
      else if p = .leaving then [] else if r.held id = [] then [d] else r.held id := by
  by_cases hid : d.identity = id
  · subst hid
    rw [if_neg (not_not.mpr rfl)]
    cases hfound : r.find? d.identity with
    | none =>
      have hnil := held_nil_iff.mpr hfound
      cases p <;> simp [observe, hfound, held_added, hnil]
    | some e =>
      have hsome : r.held d.identity ≠ [] := by simp [held_nil_iff, hfound]
      cases p with
      | present => simp [observe, hfound, hsome]
      | leaving => simp only [observe, hfound, held_removed, if_true]
  · rw [if_pos hid]
    cases hfound : r.find? d.identity <;> cases p <;>
      simp only [observe, hfound, held_added, held_removed, if_neg hid, List.append_nil]

/-- **After a sighting its device is there if it was present**, and every other as before. -/
theorem holds_observe (r : Registry) (d : Device) (p : Presence) (id : Identity) :
    (r.observe d p).2.holds id = if d.identity = id then decide (p = .present) else r.holds id := by
  rw [holds, holds, find?_eq_head?, find?_eq_head?, held_observe]
  by_cases hid : d.identity = id
  · cases hheld : r.held id <;> cases p <;> simp [hid]
  · simp [hid]

/-- The event of a sighting, if there is one, is about its device, and says whether it is there. -/
theorem observe_event (r : Registry) (d : Device) (p : Presence) :
    if r.holds d.identity = decide (p = .present) then (r.observe d p).1 = none
    else ∃ e, (r.observe d p).1 = some e ∧ e.device.identity = d.identity ∧
      e.isFound = decide (p = .present) := by
  cases hfound : r.find? d.identity with
  | none => cases p <;> simp [holds, observe, hfound, DiscoveryEvent.device, DiscoveryEvent.isFound]
  | some held =>
    have hid := identity_of_find? hfound
    cases p <;>
      simp [holds, observe, hfound, hid, DiscoveryEvent.device, DiscoveryEvent.isFound]

/-- A sighting of what is known already changes nothing. -/
theorem observe_known (h : r.holds d.identity = decide (p = .present)) : r.observe d p = (none, r) := by
  cases hfound : r.find? d.identity with
  | none => cases p <;> simp_all [holds, observe]
  | some held => cases p <;> simp_all [holds, observe]

theorem mem_changes {e : DiscoveryEvent} (h : e ∈ r.changes ss) :
    ∃ s ∈ ss, e.device.identity = s.1.identity := by
  induction ss generalizing r with
  | nil => cases h
  | cons s ss ih =>
    obtain hhead | hrest := List.mem_append.mp h
    · have hhead : e ∈ (r.observe s.1 s.2).1.toList := hhead
      have hevent := r.observe_event s.1 s.2
      refine ⟨s, List.mem_cons_self, ?_⟩
      split at hevent
      · rw [hevent] at hhead
        cases hhead
      · obtain ⟨e', he', hid, -⟩ := hevent
        rw [he'] at hhead
        obtain rfl := List.mem_singleton.mp hhead
        exact hid
    · obtain ⟨s', hs', hid⟩ := ih hrest
      exact ⟨s', List.mem_cons_of_mem _ hs', hid⟩

/-- A sighting of another device brings nothing about this one. -/
theorem observe_other (r : Registry) (p : Presence) (h : d.identity ≠ id) :
    (r.observe d p).1.toList.filter (·.isAbout id) = [] := by
  have hevent := r.observe_event d p
  split at hevent
  · rw [hevent]
    rfl
  · obtain ⟨e, he, hdevice, -⟩ := hevent
    have habout : ¬ e.isAbout id = true := by
      rw [DiscoveryEvent.isAbout, hdevice]
      simpa using h
    rw [he, Option.toList_some, List.filter_cons_of_neg habout, List.filter_nil]

/-- A sighting of a device brings the change of whether it is there. -/
theorem observe_own (r : Registry) (d : Device) (p : Presence) :
    if r.holds d.identity = decide (p = .present) then
      (r.observe d p).1.toList.filter (·.isAbout d.identity) = []
    else ∃ e, (r.observe d p).1.toList.filter (·.isAbout d.identity) = [e] ∧
      e.isFound = !r.holds d.identity := by
  have hevent := r.observe_event d p
  split at hevent
  · next hsame =>
    rw [if_pos hsame, hevent]
    rfl
  · next hother =>
    obtain ⟨e, he, hdevice, hfound⟩ := hevent
    have habout : e.isAbout d.identity = true := decide_eq_true hdevice
    rw [if_neg hother, he, Option.toList_some, List.filter_cons_of_pos habout, List.filter_nil]
    exact ⟨e, rfl, hfound.trans (Bool.eq_not_of_ne (Ne.symm hother))⟩

/-- **The events of one identity alternate, beginning with its arrival**, and the last one says whether it
is there. -/
theorem changes_alternate (ss : List Sighting) (id : Identity) :
    DiscoveryEvent.Alternate ((changes {} ss).filter (·.isAbout id)) ∧
      (after {} ss).holds id =
        decide (((changes {} ss).filter (·.isAbout id)).length % 2 = 1) := by
  induction ss using List.reverseRecOn with
  | nil => exact ⟨nofun, rfl⟩
  | append_singleton ss s ih =>
    obtain ⟨halt, hholds⟩ := ih
    have hnext := (after {} ss).holds_observe s.1 s.2 id
    have hafter : after {} (ss ++ [s]) = ((after {} ss).observe s.1 s.2).2 := after_append
    rw [hafter, changes_snoc, List.filter_append, hnext]
    by_cases hid : s.1.identity = id
    · subst hid
      rw [if_pos rfl]
      have hown := (after {} ss).observe_own s.1 s.2
      split at hown
      · next hsame =>
        rw [hown, List.append_nil, ← hsame]
        exact ⟨halt, hholds⟩
      · next hother =>
        obtain ⟨e, he, hfound⟩ := hown
        have hpresent : decide (s.2 = .present) = e.isFound :=
          (Bool.eq_not_of_ne (Ne.symm hother)).trans hfound.symm
        have hparity : e.isFound =
            decide (((changes {} ss).filter (·.isAbout s.1.identity)).length % 2 = 0) := by
          rw [hfound, hholds, ← decide_not, decide_eq_decide]
          omega
        rw [he, hpresent, hparity, List.length_append, List.length_singleton, decide_eq_decide]
        exact ⟨halt.snoc hparity, by omega⟩
    · rw [if_neg hid, observe_other _ _ hid, List.append_nil]
      exact ⟨halt, hholds⟩

end Registry

/-! ## Datagrams -/

namespace Profile

variable {p : Profile} {d : Datagram} {ds : List Datagram}

/-- The sighting of another device that a datagram is, if it is one. -/
def sighting? (p : Profile) (d : Datagram) : Option Sighting := (p.sight d).toOption.join

/-- The registry after some datagrams. -/
def known (p : Profile) (ds : List Datagram) : Registry := .after {} (ds.filterMap p.sighting?)

/-- The changes that datagrams bring, in order. -/
def changes (p : Profile) (ds : List Datagram) : List DiscoveryEvent :=
  Registry.changes {} (ds.filterMap p.sighting?)

/-- A datagram that says nothing new to someone who has received others before. -/
inductive Silent (p : Profile) (before : List Datagram) (d : Datagram) : Prop where
  /-- It is no announcement. -/
  | undecodable {e : DiscoveryError} : p.sight d = .error e → Silent p before d
  /-- It is our own. -/
  | own : p.sight d = .ok none → Silent p before d
  /-- A device arrives that is there already. -/
  | repeated {device : Device} : p.sight d = .ok (some (device, .present)) →
      (p.known before).contains device = true → Silent p before d
  /-- A device leaves that is not there. -/
  | unknown {device : Device} : p.sight d = .ok (some (device, .leaving)) →
      (p.known before).contains device = false → Silent p before d

/-- The changes and the registry after one more datagram. -/
theorem changes_snoc (p : Profile) (ds : List Datagram) (d : Datagram) :
    p.changes (ds ++ [d]) = p.changes ds ++ (Registry.changes (p.known ds) (p.sighting? d).toList) ∧
      p.known (ds ++ [d]) = (p.known ds).after (p.sighting? d).toList := by
  have hone : [d].filterMap p.sighting? = (p.sighting? d).toList := by
    cases h : p.sighting? d <;> simp [h]
  rw [changes, changes, known, known, List.filterMap_append, hone]
  exact ⟨Registry.changes_append, Registry.after_append⟩

theorem changes_append (p : Profile) (ds es : List Datagram) : p.changes (ds ++ es) =
    p.changes ds ++ Registry.changes (p.known ds) (es.filterMap p.sighting?) := by
  rw [changes, List.filterMap_append]
  exact Registry.changes_append

/-- A datagram brings one change at most. -/
theorem changes_one (p : Profile) (ds : List Datagram) (d : Datagram) :
    ∃ event? : Option DiscoveryEvent, p.changes (ds ++ [d]) = p.changes ds ++ event?.toList := by
  rw [(changes_snoc p ds d).1]
  cases p.sighting? d with
  | none => exact ⟨none, rfl⟩
  | some s => exact ⟨_, congrArg (p.changes ds ++ ·) (List.append_nil _)⟩

theorem changes_begins (p : Profile) (ds es : List Datagram) : p.changes ds <+: p.changes (ds ++ es) :=
  ⟨_, (changes_append p ds es).symm⟩

/-- Our own announcement is no sighting. -/
theorem identity_of_sighting? {s : Sighting} (h : p.sighting? d = some s) :
    s.1.identity ≠ p.identity := by
  unfold sighting? at h
  generalize hsight : p.sight d = found at h
  cases found with
  | error e => cases h
  | ok found =>
    obtain rfl : found = some s := h
    rw [sight, classify] at hsight
    split at hsight
    · cases hsight
    · split at hsight
      · cases hsight
      · injection hsight with hsight
        split at hsight
        · cases hsight
        · next hother =>
          cases hsight
          exact hother
      · cases hsight

theorem identity_of_mem_changes {e : DiscoveryEvent} (h : e ∈ p.changes ds) :
    e.device.identity ≠ p.identity := by
  obtain ⟨s, hs, hid⟩ := Registry.mem_changes h
  obtain ⟨d, -, hd⟩ := List.mem_filterMap.mp hs
  rw [hid]
  exact identity_of_sighting? hd

/-- **A silent datagram can be put in or left out.** -/
theorem changes_silent {before : List Datagram} (h : p.Silent before d) (later : List Datagram) :
    p.changes (before ++ d :: later) = p.changes (before ++ later) := by
  have hsplit : before ++ d :: later = (before ++ [d]) ++ later := by
    rw [List.append_assoc, List.singleton_append]
  have hsame : p.changes (before ++ [d]) = p.changes before ∧ p.known (before ++ [d]) = p.known before := by
    obtain ⟨hchanges, hknown⟩ := changes_snoc p before d
    have hquiet : ∀ s : Option Sighting, p.sighting? d = s →
        (∀ x ∈ s, (p.known before).observe x.1 x.2 = (none, p.known before)) →
        p.changes (before ++ [d]) = p.changes before ∧ p.known (before ++ [d]) = p.known before := by
      rintro s hs hobserve
      rw [hchanges, hknown, hs]
      cases s with
      | none => exact ⟨List.append_nil _, rfl⟩
      | some x =>
        have hx := hobserve x rfl
        simp [Registry.changes, Registry.after, Registry.watching, Machine.along, hx]
    cases h with
    | undecodable hsight => exact hquiet none (by rw [sighting?, hsight]; rfl) (by simp)
    | own hsight => exact hquiet none (by rw [sighting?, hsight]; rfl) (by simp)
    | repeated hsight hheld =>
      refine hquiet (some _) (by rw [sighting?, hsight]; rfl) ?_
      rintro _ ⟨⟩
      exact Registry.observe_known hheld
    | unknown hsight hheld =>
      refine hquiet (some _) (by rw [sighting?, hsight]; rfl) ?_
      rintro _ ⟨⟩
      exact Registry.observe_known hheld
  rw [hsplit, changes_append, hsame.1, hsame.2, changes_append]

end Profile

/-! ## The scan -/

namespace Scan

variable {p : Profile} {s : Scan} {read : List Datagram} {got : List DiscoveryEvent}

/-- A scan whose receiving end is held and which has read these datagrams: their changes have been
received, are in the queue, or are in hand. -/
structure Keeps (p : Profile) (read : List Datagram) (got : List DiscoveryEvent) (s : Scan) :
    Prop where
  running : s.running = true
  held : s.dropped = false
  room : 0 < s.capacity
  registry_eq : s.registry = p.known read
  events_eq : got ++ s.queue ++ s.inHand.toList = p.changes read

/-- With an event in hand the queue is full. -/
def Pressed (s : Scan) : Prop := s.inHand.isSome = true → s.capacity ≤ s.queue.length

theorem keeps_start (p : Profile) (capacity : Nat) : Keeps p [] [] (start capacity) :=
  ⟨rfl, rfl, Nat.lt_of_lt_of_le Nat.one_pos (Nat.le_max_right _ _), rfl, rfl⟩

theorem Keeps.push (h : s.Keeps p read got) :
    s.push.Keeps p read got ∧ s.push.Pressed := by
  unfold Scan.push
  cases hhand : s.inHand with
  | none => exact ⟨h, fun hsome => by rw [hhand] at hsome; cases hsome⟩
  | some e =>
    simp only [h.held, Bool.false_eq_true, if_false]
    split
    · refine ⟨⟨h.running, rfl, h.room, h.registry_eq, ?_⟩, nofun⟩
      rw [← h.events_eq, hhand]
      simp
    · next hfull => exact ⟨h, fun _ => Nat.not_lt.mp hfull⟩

theorem Keeps.look (h : s.Keeps p read got) (hfree : s.inHand = none) (d : Datagram) :
    (s.look p d).Keeps p (read ++ [d]) got := by
  obtain ⟨hchanges, hknown⟩ := p.changes_snoc read d
  have hevents := h.events_eq
  rw [hfree, Option.toList_none, List.append_nil] at hevents
  have hquiet : p.sighting? d = none → s.Keeps p (read ++ [d]) got := by
    intro hnone
    rw [hnone] at hchanges hknown
    refine ⟨h.running, h.held, h.room, h.registry_eq.trans hknown.symm, ?_⟩
    rw [hchanges, ← h.events_eq]
    exact (List.append_nil _).symm
  unfold Scan.look
  split
  · next device presence hsight =>
    have hsome : p.sighting? d = some (device, presence) := by rw [Profile.sighting?, hsight]; rfl
    rw [hsome, Option.toList_some] at hchanges hknown
    refine ⟨h.running, h.held, h.room, ?_, ?_⟩
    · rw [hknown, ← h.registry_eq]
      rfl
    · rw [hchanges, ← hevents, ← h.registry_eq]
      exact congrArg (got ++ s.queue ++ ·) (List.append_nil _).symm
  · next hsight =>
    refine hquiet ?_
    rw [Profile.sighting?]
    cases hfound : p.sight d with
    | error e => rfl
    | ok found =>
      cases found with
      | none => rfl
      | some x => exact absurd hfound (hsight x.1 x.2)

/-- **A scan reads until the queue is full or nothing is left.** -/
theorem Keeps.drain (h : s.Keeps p read got) (ds : List Datagram) :
    ∃ more, more ++ (s.drain p ds).2 = ds ∧ (s.drain p ds).1.Keeps p (read ++ more) got ∧
      (s.drain p ds).1.Pressed ∧ ((s.drain p ds).2 ≠ [] → (s.drain p ds).1.inHand.isSome = true) := by
  induction ds generalizing s read with
  | nil =>
    obtain ⟨hkeeps, hpressed⟩ := h.push
    exact ⟨[], rfl, (List.append_nil read).symm ▸ hkeeps, hpressed, fun hne => absurd rfl hne⟩
  | cons d ds ih =>
    obtain ⟨hkeeps, hpressed⟩ := h.push
    rw [Scan.drain, hkeeps.running, Bool.not_true, Bool.false_or]
    by_cases hhand : s.push.inHand.isSome = true
    · rw [if_pos hhand]
      exact ⟨[], rfl, (List.append_nil read).symm ▸ hkeeps, hpressed, fun _ => hhand⟩
    · obtain ⟨more, hsplit, hnext⟩ := ih (hkeeps.look (Option.not_isSome_iff_eq_none.mp hhand) d)
      rw [if_neg hhand]
      refine ⟨d :: more, congrArg (d :: ·) hsplit, ?_⟩
      rw [List.append_assoc, List.singleton_append] at hnext
      exact hnext

/-- The event at the front of the queue is received. -/
theorem Keeps.receive_cons (h : s.Keeps p read got) {e : DiscoveryEvent} {queue : List DiscoveryEvent}
    (hqueue : s.queue = e :: queue) :
    s.receive = (.event e, { s with queue }) ∧ Keeps p read (got ++ [e]) { s with queue } := by
  refine ⟨?_, h.running, h.held, h.room, h.registry_eq, ?_⟩
  · rw [receive, h.held, hqueue]
    rfl
  · rw [← h.events_eq, hqueue]
    simp

theorem Keeps.receive_nil (h : s.Keeps p read got) (hqueue : s.queue = []) :
    s.receive = (.empty, s) := by
  rw [receive, h.held, hqueue, h.running]
  rfl

/-- An empty queue has room, so that nothing is in hand. -/
theorem Keeps.free_of_nil (h : s.Keeps p read got) (hpressed : s.Pressed) (hqueue : s.queue = []) :
    s.inHand = none := by
  by_contra hsome
  have hfull := hpressed (Option.isSome_iff_ne_none.mpr hsome)
  rw [hqueue, List.length_nil] at hfull
  exact absurd h.room (Nat.not_lt.mpr hfull)

end Scan

/-! ## The listener -/

namespace Listener

variable {l : Listener} {all : List Datagram} {got : List DiscoveryEvent} {m : Move}
  {ms : List Move}

/-- The moves that leave a scan to itself: all but closing the listener, giving the events up, and reading
datagrams beside the scan. -/
def Move.Listens : Move → Prop
  | .discover _ | .dropEvents | .close => False
  | _ => True

/-- A listener while it scans. -/
def scanning : Machine Listener Move := ⟨fun _ m => m.Listens, move⟩

/-- The event that is received in a move. -/
def received? (l : Listener) : Move → List DiscoveryEvent
  | .nextEvent =>
    match l.nextEvent.1 with
    | .event e => [e]
    | _ => []
  | _ => []

/-- The events that are received in some moves. -/
def received (l : Listener) (ms : List Move) : List DiscoveryEvent := scanning.along received? l ms

/-- The datagrams that arrive in some moves. -/
def arrived (ms : List Move) : List Datagram :=
  ms.filterMap fun
    | .deliver d => some d
    | _ => none

/-- Between any two moves: a listener scans, these datagrams have arrived and these events have been
received. What has not been read waits because the queue is full. -/
structure Scans (p : Profile) (all : List Datagram) (got : List DiscoveryEvent) (l : Listener) :
    Prop where
  profile_eq : l.profile = p
  scan : ∃ s read, l.scan = some s ∧ read ++ l.incoming = all ∧ s.Keeps p read got ∧
    s.Pressed ∧ (l.incoming ≠ [] → s.inHand.isSome = true)

variable {p : Profile}

/-- A listener whose scan reads what it can. -/
theorem scans_settle {s : Scan} {read : List Datagram} (hprofile : l.profile = p)
    (hscan : l.scan = some s) (hkeeps : s.Keeps p read got) :
    l.settle.Scans p (read ++ l.incoming) got := by
  obtain ⟨more, hsplit, hnext, hpressed, hleft⟩ := hkeeps.drain l.incoming
  have hsettle : l.settle =
      { l with scan := some (s.drain p l.incoming).1, incoming := (s.drain p l.incoming).2 } := by
    rw [settle, hscan, hprofile]
  rw [hsettle]
  refine ⟨hprofile, _, read ++ more, rfl, ?_, hnext, hpressed, hleft⟩
  rw [List.append_assoc, hsplit]

theorem scans_start (hopen : l.closed = false) (hnone : l.scan = none) (capacity : Nat) :
    (l.startScan capacity).1 = .ok () ∧
      (l.startScan capacity).2.Scans l.profile l.incoming [] := by
  have hstart : l.startScan capacity = (.ok (), { l with scan := some (.start capacity) }.settle) := by
    simp only [startScan, hopen, hnone, Option.isSome_none, Bool.false_eq_true, if_false]
  rw [hstart]
  exact ⟨rfl, scans_settle (l := { l with scan := some (.start capacity) }) rfl rfl
    (Scan.keeps_start l.profile capacity)⟩

theorem Scans.deliver (h : l.Scans p all got) (d : Datagram) :
    (l.deliver d).Scans p (all ++ [d]) got := by
  obtain ⟨s, read, hscan, rfl, hkeeps, -, -⟩ := h.scan
  have hnext := scans_settle (l := { l with incoming := l.incoming ++ [d] }) h.profile_eq hscan hkeeps
  rwa [← List.append_assoc] at hnext

/-- **What is received next is the next change**, and nothing if all have been received. -/
theorem Scans.nextEvent (h : l.Scans p all got) :
    l.nextEvent.1 = (p.changes all)[got.length]?.elim .empty .event ∧
      l.nextEvent.2.Scans p all (got ++ (p.changes all)[got.length]?.toList) := by
  obtain ⟨s, read, hscan, rfl, hkeeps, hpressed, hleft⟩ := h.scan
  obtain ⟨later, hlater⟩ := p.changes_begins read l.incoming
  have hevents := hkeeps.events_eq
  cases hqueue : s.queue with
  | cons e queue =>
    obtain ⟨hreceive, hkept⟩ := hkeeps.receive_cons hqueue
    have hnth : (p.changes (read ++ l.incoming))[got.length]? = some e := by
      rw [← hlater, ← hevents, hqueue]
      simp
    rw [hnth, Listener.nextEvent, hscan]
    simp only [hreceive]
    exact ⟨rfl, scans_settle (l := { l with scan := some { s with queue } }) h.profile_eq rfl hkept⟩
  | nil =>
    have hfree := hkeeps.free_of_nil hpressed hqueue
    have hread : l.incoming = [] := by
      by_contra hne
      have hsome := hleft hne
      rw [hfree] at hsome
      cases hsome
    have hnth : (p.changes (read ++ l.incoming))[got.length]? = none := by
      rw [hread, List.append_nil, ← hevents, hqueue, hfree]
      simp
    rw [hnth, Option.toList_none, List.append_nil, Listener.nextEvent, hscan]
    simp only [hkeeps.receive_nil hqueue]
    exact ⟨rfl, scans_settle (l := { l with scan := some s }) h.profile_eq rfl hkeeps⟩

theorem Scans.received?_nextEvent (h : l.Scans p all got) :
    l.received? .nextEvent = (p.changes all)[got.length]?.toList := by
  rw [received?, h.nextEvent.1]
  cases (p.changes all)[got.length]? <;> rfl

/-- What has been received is a beginning of the changes. -/
theorem Scans.received_begins (h : l.Scans p all got) : got <+: p.changes all := by
  obtain ⟨s, read, -, rfl, hkeeps, -, -⟩ := h.scan
  refine .trans ⟨s.queue ++ s.inHand.toList, ?_⟩ (p.changes_begins read l.incoming)
  rw [← hkeeps.events_eq, List.append_assoc]

theorem Scans.of_same {l' : Listener} (h : l.Scans p all got) (hprofile : l'.profile = l.profile)
    (hscan : l'.scan = l.scan) (hincoming : l'.incoming = l.incoming) : l'.Scans p all got :=
  ⟨hprofile.trans h.profile_eq, by rw [hscan, hincoming]; exact h.scan⟩

theorem Scans.startScan (h : l.Scans p all got) (capacity : Nat) :
    (l.startScan capacity).2.Scans p all got := by
  obtain ⟨s, -, hscan, -⟩ := h.scan
  unfold Listener.startScan
  rw [hscan, Option.isSome_some, if_pos rfl]
  split <;> exact h

/-- A move of a listener that scans. -/
theorem Scans.move (h : l.Scans p all got) (hm : m.Listens) :
    (l.move m).Scans p (all ++ arrived [m]) (got ++ received? l m) := by
  -- Most moves bring neither a datagram nor an event.
  have hother : (l.move m).Scans p all got → arrived [m] = [] → received? l m = [] →
      (l.move m).Scans p (all ++ arrived [m]) (got ++ received? l m) := by
    intro hscans harrived hreceived
    rwa [harrived, hreceived, List.append_nil, List.append_nil]
  have hsame : m.Announces → (l.move m).Scans p all got := by
    intro hannounces
    obtain ⟨hprofile, hscan, hincoming⟩ := move_keeps hannounces
    exact h.of_same hprofile hscan hincoming
  cases m with
  | announce | unannounce | announceEvery _ | advance _ | wait _ => exact hother (hsame trivial) rfl rfl
  | startScan capacity => exact hother (h.startScan capacity) rfl rfl
  | deliver d =>
    have hnext := h.deliver d
    rwa [← List.append_nil got] at hnext
  | nextEvent =>
    rw [h.received?_nextEvent]
    exact (List.append_nil all).symm ▸ h.nextEvent.2
  | discover timeout => cases hm
  | dropEvents => cases hm
  | close => cases hm

/-- **A listener that scans receives a beginning of the changes, whatever else it does.** -/
theorem Scans.after (h : l.Scans p all got) (hms : ∀ m ∈ ms, m.Listens) :
    (l.after ms).Scans p (all ++ arrived ms) (got ++ received l ms) := by
  induction ms using List.reverseRecOn with
  | nil =>
    rw [arrived, received, Machine.along, List.filterMap_nil, List.append_nil, List.append_nil]
    exact h
  | append_singleton ms m ih =>
    obtain ⟨hbefore, hlast⟩ := List.forall_mem_append.mp hms
    have hnext := (ih hbefore).move (hlast m (List.mem_singleton_self m))
    rw [after_snoc, arrived, List.filterMap_append, received, Machine.along_snoc, ← List.append_assoc,
      ← List.append_assoc]
    exact hnext

/-- **Whoever goes on receiving gets the changes one after the other.** -/
theorem Scans.received_nextEvent (h : l.Scans p all got) (n : Nat) :
    got ++ received l (List.replicate n .nextEvent) = (p.changes all).take (got.length + n) := by
  induction n generalizing l got with
  | zero =>
    rw [Nat.add_zero, ← List.prefix_iff_eq_take.mp h.received_begins]
    exact List.append_nil got
  | succ n ih =>
    have hrest := ih h.nextEvent.2
    rw [List.append_assoc, ← h.received?_nextEvent] at hrest
    refine hrest.trans ?_
    rw [h.received?_nextEvent]
    cases hnth : (p.changes all)[got.length]? with
    | some e =>
      rw [Option.toList_some, List.length_append, List.length_singleton, Nat.add_assoc, Nat.add_comm 1]
    | none =>
      have hlen := List.getElem?_eq_none_iff.mp hnth
      rw [Option.toList_none, List.append_nil, List.take_of_length_le (by omega),
        List.take_of_length_le (by omega)]

/-- Events that are taken as soon as they come are all received. -/
theorem Scans.events (h : l.Scans p all (p.changes all)) (ds : List Datagram) :
    p.changes all ++ (l.events ds).1 = p.changes (all ++ ds) ∧
      (l.events ds).2.Scans p (all ++ ds) (p.changes (all ++ ds)) := by
  induction ds generalizing l all with
  | nil =>
    rw [List.append_nil]
    exact ⟨List.append_nil _, h⟩
  | cons d ds ih =>
    obtain ⟨hresult, hnext⟩ := (h.deliver d).nextEvent
    obtain ⟨event?, hone⟩ := p.changes_one all d
    have hnth : (p.changes all ++ event?.toList)[(p.changes all).length]? = event? := by
      cases event? <;> simp
    rw [hone, hnth] at hresult hnext
    rw [← hone] at hnext
    have hsplit : all ++ d :: ds = all ++ [d] ++ ds := by simp
    obtain ⟨hrest, hscans⟩ := ih hnext
    rw [hone, List.append_assoc] at hrest
    rw [hsplit, Listener.events]
    generalize (l.deliver d).nextEvent = r at hresult hrest hscans
    obtain ⟨result, next⟩ := r
    subst hresult
    cases event? <;> exact ⟨hrest, hscans⟩

/-- **A scan brings the changes of the datagrams, in order and each once**, however many events its queue
holds and whatever else the listener does, to whoever goes on receiving. None is about the listener itself,
those of one identity are arrivals and departures by turns, and a datagram that says nothing new makes no
difference, wherever it comes. -/
theorem scan_brings_changes (hopen : l.closed = false) (hnone : l.scan = none) (capacity : Nat) :
    let scanning := (l.startScan capacity).2
    let heard := fun ms => l.incoming ++ arrived ms
    (l.startScan capacity).1 = .ok () ∧
      (∀ ms, (∀ m ∈ ms, m.Listens) →
        received scanning ms <+: l.profile.changes (heard ms) ∧
        (∀ n, received scanning (ms ++ List.replicate n .nextEvent) =
          (l.profile.changes (heard ms)).take ((received scanning ms).length + n)) ∧
        (∀ e ∈ l.profile.changes (heard ms), e.device.identity ≠ l.profile.identity) ∧
        ∀ id i e, ((l.profile.changes (heard ms)).filter (·.isAbout id))[i]? = some e →
          e.isFound = decide (i % 2 = 0)) ∧
      ∀ ms ms' before d later, (∀ m ∈ ms, m.Listens) → (∀ m ∈ ms', m.Listens) →
        heard ms = before ++ d :: later → heard ms' = before ++ later → l.profile.Silent before d →
        ∃ n, ∀ k, n ≤ k → received scanning (ms ++ List.replicate k .nextEvent) =
          received scanning (ms' ++ List.replicate k .nextEvent) := by
  intro scanning heard
  obtain ⟨hok, hstart⟩ := scans_start hopen hnone capacity
  have hrun : ∀ ms n, (∀ m ∈ ms, m.Listens) → received scanning (ms ++ List.replicate n .nextEvent) =
      (l.profile.changes (heard ms)).take ((received scanning ms).length + n) := by
    intro ms n hms
    have hafter := hstart.after hms
    rw [received, Machine.along_append]
    exact hafter.received_nextEvent n
  refine ⟨hok, fun ms hms => ⟨(hstart.after hms).received_begins, fun n => hrun ms n hms,
    fun e he => Profile.identity_of_mem_changes he, fun id => (Registry.changes_alternate _ id).1⟩, ?_⟩
  intro ms ms' before d later hms hms' hheard hheard' hsilent
  have hsame : l.profile.changes (heard ms) = l.profile.changes (heard ms') := by
    rw [hheard, hheard', Profile.changes_silent hsilent]
  refine ⟨(l.profile.changes (heard ms)).length, fun k hk => ?_⟩
  rw [hrun ms k hms, hrun ms' k hms', ← hsame, List.take_of_length_le (by omega),
    List.take_of_length_le (by omega)]

/-- A participant that listens beside a laptop. -/
def desk : Listener := { profile := ⟨⟨.zero, "desk", "booth", "1.1"⟩, 40001⟩, targets := [] }

/-- With noise and the same arrival again behind it, a laptop arrives once. -/
theorem scan_brings_changes_laptop : desk.closed = false ∧ desk.scan = none ∧
    ∃ b, (Profile.laptop.message .howdy).encode = .ok b ∧ ∀ source elsewhere,
      received (desk.startScan 0).2 [.deliver ⟨source, b⟩, .deliver ⟨source, [0]⟩,
        .deliver ⟨elsewhere, b⟩, .nextEvent, .nextEvent] =
          [.found ⟨source, 40001, Profile.laptop.identity⟩] := by
  have hb : ∃ b, (Profile.laptop.message .howdy).encode = .ok b ∧ b.length ≤ receiveLimit :=
    ⟨_, rfl, by decide⟩
  obtain ⟨b, hb, hfit⟩ := hb
  refine ⟨rfl, rfl, b, hb, fun source elsewhere => ?_⟩
  have hsight : ∀ a, desk.profile.sighting? ⟨a, b⟩ =
      some (⟨a, 40001, Profile.laptop.identity⟩, .present) := by
    intro a
    have hheard := Profile.sight_message (by decide) hb desk.profile [] a
    rw [List.append_nil, if_pos hfit, ← List.append_nil b, Profile.classify_message (by decide) hb,
      if_neg (by decide), List.append_nil] at hheard
    rw [Profile.sighting?, hheard]
    rfl
  have hnoise : desk.profile.sighting? ⟨source, [0]⟩ = none := rfl
  have hchanges : desk.profile.changes [⟨source, b⟩, ⟨source, [0]⟩, ⟨elsewhere, b⟩] =
      [.found ⟨source, 40001, Profile.laptop.identity⟩] := by
    rw [Profile.changes, List.filterMap_cons_some (hsight source), List.filterMap_cons_none hnoise,
      List.filterMap_cons_some (hsight elsewhere), List.filterMap_nil]
    rfl
  obtain ⟨-, hscan, -⟩ := scan_brings_changes (l := desk) rfl rfl 0
  obtain ⟨-, hreceived, -⟩ := hscan [.deliver ⟨source, b⟩, .deliver ⟨source, [0]⟩,
    .deliver ⟨elsewhere, b⟩] (by simp [Move.Listens])
  refine (hreceived 2).trans ?_
  rw [List.take_of_length_le]
  · exact hchanges
  · show (desk.profile.changes [⟨source, b⟩, ⟨source, [0]⟩, ⟨elsewhere, b⟩]).length ≤ _
    rw [hchanges, List.length_singleton]
    omega

end Listener

end BoothLink
