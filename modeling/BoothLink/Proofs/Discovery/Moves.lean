import BoothLink.Discovery.Listener
import BoothLink.Proofs.Catalog.Recovery
import BoothLink.Proofs.Message.Limits

/-!
# What happens to a listener

Calls and the clock are moves of a listener. What the network knows of us is in the datagrams that have
reached a target: each is decoded again, and says that we are here or that we leave. A move comes with our
arrival, with our departure, or with neither; in the last case nothing is told but what the recurring
announcements repeat.

* `Listener.Move`, `Listener.move`, `Listener.after`.
* `Listener.told`: what the network has been told.
* `Listener.Reaches`: what is sent gets to a target; `Listener.Reaches.told_send`.
* `Listener.joins`, `Listener.leaves`: the moves that come with our arrival or departure.
* `Listener.Move.Announces`, `Listener.move_keeps`: the moves that leave the scan and the queue.
* **`Listener.state_move`**, **`Listener.Reaches.told_move`**, **`Listener.announcer_move`**: all that a
  move can do, as far as the network can notice.
-/

namespace BoothLink

namespace Listener

/-- What may happen to a listener. -/
inductive Move where
  | announce
  | unannounce
  /-- Announcements begin to recur. The call only starts a task for them; the move stands where that task
  takes its first turn, before which nothing can be noticed of it. -/
  | announceEvery (interval : Nat)
  /-- The clock jumps. -/
  | advance (milliseconds : Nat)
  /-- The clock runs on. -/
  | wait (milliseconds : Nat)
  /-- A datagram arrives. -/
  | deliver (d : Datagram)
  | discover (timeout : Nat)
  | startScan (capacity : Nat)
  | nextEvent
  | dropEvents
  | close
  deriving DecidableEq

def move (l : Listener) : Move → Listener
  | .announce => l.announce.2
  | .unannounce => l.unannounce.2
  | .announceEvery interval => (l.announceEvery interval).2
  | .advance milliseconds => l.advance milliseconds
  | .wait milliseconds => l.wait milliseconds
  | .deliver d => l.deliver d
  | .discover timeout => (l.discover timeout).2
  | .startScan capacity => (l.startScan capacity).2
  | .nextEvent => l.nextEvent.2
  | .dropEvents => l.dropEvents
  | .close => l.close.2

/-- A listener after some moves. -/
def after (l : Listener) (ms : List Move) : Listener := ms.foldl move l

variable {l : Listener} {m : Move} {ms : List Move} {action : Action}

theorem after_append (l : Listener) (ms ns : List Move) :
    l.after (ms ++ ns) = (l.after ms).after ns := List.foldl_append

theorem after_snoc (l : Listener) (ms : List Move) (m : Move) :
    l.after (ms ++ [m]) = (l.after ms).move m := after_append l ms [m]

/-! ## What the network is told -/

/-- What a datagram says of its sender. -/
def said (b : Octets) : Option Action :=
  match Catalog.discovery.decodeDatagram b with
  | .ok (.discovery a) => some a.action
  | _ => none

/-- What the network has been told, in order. -/
def told (l : Listener) : List Action := l.sent.filterMap said

/-- There are targets, and whatever we send gets to one of them. -/
structure Reaches (l : Listener) : Prop where
  someone : l.targets ≠ []
  sends : ∀ action, (l.send action).1 = .ok ()

/-- How many targets an announcement gets to. -/
def reach (l : Listener) : Nat := (l.targets.filter (· = .reachable)).length

/-- A datagram that carries our announcement says so. -/
theorem said_encode {p : Profile} {b : Octets} (h : (p.message action).encode = .ok b)
    (hb : b.length ≤ datagramLimit) : said b = some action := by
  have hfits : (p.message action).TextsFit := by
    obtain ⟨body, hbody, ⟨hframe, -⟩ | ⟨-, rfl⟩⟩ := Message.encode_inv h
    · cases hframe
    · obtain ⟨-, row, hrow, rfl⟩ := Message.body_inv hbody
      rw [List.length_append] at hb
      exact Field.fits_of_writeAll hrow (by unfold datagramLimit frameLimit at *; omega)
  have hclear : Catalog.discovery.Clear := Catalog.transports_clear _ (by decide)
  have hdecoded := Catalog.decodeDatagram_encode hclear ⟨List.mem_singleton.mpr rfl, ⟨b, h⟩, hfits⟩ h []
  rw [List.append_nil] at hdecoded
  rw [said, hdecoded]
  rfl

/-- What is sent changes nothing else about the listener. -/
theorem send_eq (l : Listener) (action : Action) :
    (l.send action).2 = { l with sent := (l.send action).2.sent } := by
  unfold send
  split <;> rfl

/-- An announcement that gets to a target is a datagram to every target that can be reached. -/
theorem Reaches.sent_send (h : l.Reaches) (action : Action) : ∃ b, 0 < l.reach ∧
    said b = some action ∧ (l.send action).2.sent = l.sent ++ List.replicate l.reach b := by
  have hsends := h.sends action
  unfold send at hsends ⊢
  split at hsends
  · cases hsends
  · next b hb =>
    have htaken : l.targets.filter (Target.takes · b.length) ≠ [] := by
      intro hnone
      simp [hnone, h.someone] at hsends
    obtain ⟨t, ht⟩ := List.exists_mem_of_ne_nil _ htaken
    obtain ⟨-, hsize⟩ : t = .reachable ∧ b.length ≤ datagramLimit := by
      simpa [Target.takes] using (List.mem_filter.mp ht).2
    have hall : l.targets.filter (Target.takes · b.length) = l.targets.filter (· = .reachable) := by
      refine List.filter_congr fun t _ => ?_
      rw [Target.takes, decide_eq_true hsize, Bool.and_true]
    rw [hall] at htaken
    refine ⟨b, List.length_pos_iff.mpr htaken, said_encode hb hsize, ?_⟩
    show l.sent ++ (l.targets.filter (Target.takes · b.length)).map (fun _ => b) = _
    rw [hall, List.map_const']
    rfl

/-- **What is sent is told to every target that can be reached.** -/
theorem Reaches.told_send (h : l.Reaches) (action : Action) :
    (l.send action).2.told = l.told ++ List.replicate l.reach action := by
  obtain ⟨b, -, hsaid, hsent⟩ := h.sent_send action
  rw [told, told, hsent, List.filterMap_append, List.filterMap_replicate_of_some hsaid]

theorem Reaches.pos (h : l.Reaches) : 0 < l.reach := by
  obtain ⟨-, hpos, -⟩ := h.sent_send .howdy
  exact hpos

/-- Who we are and whom we tell decides what gets to them. -/
theorem Reaches.of_same {l' : Listener} (h : l.Reaches) (hprofile : l'.profile = l.profile)
    (htargets : l'.targets = l.targets) : l'.Reaches := by
  refine ⟨htargets ▸ h.someone, fun action => ?_⟩
  rw [← h.sends action, send, send, hprofile, htargets]
  split <;> rfl

/-! ## What changes nothing that the network can notice -/

/-- A listener up to its scan, the datagrams that have arrived and the time. -/
def outward (l : Listener) : Listener := { l with scan := none, incoming := [], now := 0 }

theorem outward_settle (l : Listener) : l.settle.outward = l.outward := by
  unfold settle
  split <;> rfl

theorem outward_deliver (l : Listener) (d : Datagram) : (l.deliver d).outward = l.outward :=
  outward_settle _

theorem outward_startScan (l : Listener) (capacity : Nat) :
    (l.startScan capacity).2.outward = l.outward := by
  unfold startScan
  split
  · rfl
  · split
    · rfl
    · exact outward_settle _

theorem outward_nextEvent (l : Listener) : l.nextEvent.2.outward = l.outward := by
  unfold nextEvent
  split
  · rfl
  · exact outward_settle _

theorem outward_dropEvents (l : Listener) : l.dropEvents.outward = l.outward :=
  outward_settle _

/-! ## Announcements repeated -/

/-- One listener goes on as another: it tells nothing but what recurring announcements repeat. -/
structure Goes (l l' : Listener) : Prop where
  profile : l'.profile = l.profile
  targets : l'.targets = l.targets
  announceState : l'.announceState = l.announceState
  announcer : l'.announcer.isSome = l.announcer.isSome
  closed : l'.closed = l.closed
  -- Without recurring announcements it tells nothing.
  told : l.Reaches → ∃ k, l'.told = l.told ++ List.replicate k .howdy ∧ (l.announcer = none → k = 0)

variable {l' l'' : Listener}

theorem Goes.refl (l : Listener) : Goes l l :=
  ⟨rfl, rfl, rfl, rfl, rfl, fun _ => ⟨0, (List.append_nil _).symm, fun _ => rfl⟩⟩

theorem Goes.of_outward (h : l'.outward = l.outward) : Goes l l' := by
  have hsent : l'.outward.sent = l.outward.sent := by rw [h]
  have htold : l'.told = l.told := congrArg (List.filterMap said) hsent
  refine ⟨(congrArg Listener.profile h :), (congrArg Listener.targets h :),
    (congrArg Listener.announceState h :), (congrArg (·.announcer.isSome) h :),
    (congrArg Listener.closed h :), fun _ => ⟨0, ?_, ?_⟩⟩
  · rw [htold]
    exact (List.append_nil _).symm
  · exact fun _ => rfl

theorem Goes.trans (h : Goes l l') (h' : Goes l' l'') : Goes l l'' := by
  refine ⟨h'.profile.trans h.profile, h'.targets.trans h.targets,
    h'.announceState.trans h.announceState, h'.announcer.trans h.announcer,
    h'.closed.trans h.closed, fun hreaches => ?_⟩
  obtain ⟨k, hk, hzero⟩ := h.told hreaches
  obtain ⟨k', hk', hzero'⟩ := h'.told (hreaches.of_same h.profile h.targets)
  refine ⟨k + k', ?_, fun hnone => ?_⟩
  · rw [hk', hk, List.append_assoc, List.replicate_append_replicate]
  · have hnone' : l'.announcer = none := by
      rw [← Option.not_isSome_iff_eq_none, h.announcer, hnone]
      exact Bool.false_ne_true
    rw [hzero hnone, hzero' hnone']

theorem repeat_send_eq (n : Nat) (l : Listener) : n.repeat (fun l => (l.send .howdy).2) l =
    { l with sent := (n.repeat (fun l => (l.send .howdy).2) l).sent } := by
  induction n with
  | zero => rfl
  | succ n ih =>
    rw [Nat.repeat, send_eq, ih]

/-- The passing of time leaves who we are, the scan and the queue. -/
theorem moveTo_keeps (l : Listener) (now : Nat) (rule : Ticker → Nat → Nat × Ticker) :
    (l.moveTo now rule).profile = l.profile ∧ (l.moveTo now rule).scan = l.scan ∧
      (l.moveTo now rule).incoming = l.incoming := by
  unfold moveTo
  split
  · exact ⟨rfl, rfl, rfl⟩
  · next ticker _ =>
    have heq := repeat_send_eq (rule ticker now).1 { l with now, announcer := some (rule ticker now).2 }
    exact ⟨(congrArg Listener.profile heq :), (congrArg Listener.scan heq :),
      (congrArg Listener.incoming heq :)⟩

theorem Reaches.told_repeat (h : l.Reaches) (n : Nat) :
    (n.repeat (fun l => (l.send .howdy).2) l).told =
      l.told ++ List.replicate (n * l.reach) .howdy := by
  induction n with
  | zero =>
    rw [Nat.zero_mul]
    exact (List.append_nil _).symm
  | succ n ih =>
    have heq := repeat_send_eq n l
    have hreaches : (n.repeat (fun l => (l.send .howdy).2) l).Reaches :=
      h.of_same (by rw [heq]) (by rw [heq])
    have hreach : (n.repeat (fun l => (l.send .howdy).2) l).reach = l.reach := by
      rw [reach, heq]
      rfl
    rw [Nat.repeat, hreaches.told_send, ih, hreach, List.append_assoc,
      List.replicate_append_replicate, Nat.succ_mul]

/-- Time passes, and the recurring announcements go out that are due. -/
theorem goes_moveTo (l : Listener) (now : Nat) (rule : Ticker → Nat → Nat × Ticker) :
    Goes l (l.moveTo now rule) := by
  unfold moveTo
  split
  · next hnone => exact .of_outward rfl
  · next ticker hsome =>
    have heq := repeat_send_eq (rule ticker now).1
      { l with now, announcer := some (rule ticker now).2 }
    refine ⟨(congrArg Listener.profile heq :), (congrArg Listener.targets heq :),
      (congrArg Listener.announceState heq :), ?_, (congrArg Listener.closed heq :), fun h => ?_⟩
    · rw [hsome]
      exact (congrArg (·.announcer.isSome) heq :)
    · have hreaches : Reaches { l with now, announcer := some (rule ticker now).2 } :=
        h.of_same rfl rfl
      refine ⟨_, hreaches.told_repeat _, fun hnone => ?_⟩
      rw [hsome] at hnone
      cases hnone

theorem goes_discover (l : Listener) (timeout : Nat) : Goes l (l.discover timeout).2 := by
  rw [discover]
  generalize l.profile.hear (l.now + timeout) l.now (l.incoming.map fun d => ⟨l.now, d⟩) = heard
  have hread : Goes l { l with incoming := heard.rest.map (·.datagram) } := .of_outward rfl
  cases heard.result with
  | some r => exact hread
  | none => exact hread.trans (goes_moveTo _ _ Ticker.runs)

/-! ## Arrival and departure -/

/-- Whether a move comes with our arrival. -/
def joins (l : Listener) : Move → Bool
  | .announce => true
  | .announceEvery interval => !l.closed && !l.announcer.isSome && decide (0 < interval)
  | _ => false

/-- Whether a move comes with our departure. -/
def leaves (l : Listener) : Move → Bool
  | .unannounce => true
  | .close => !l.closed && l.announcer.isSome
  | _ => false

theorem send_announceState (l : Listener) (state : AnnounceState) (action : Action) :
    (send { l with announceState := state } action).2 =
      { l with announceState := state, sent := (l.send action).2.sent } := by
  rw [send, send]
  cases (l.profile.message action).encode <;> rfl

theorem announce_eq (l : Listener) : l.announce.2 =
    { l with announceState := .announcing .present, sent := (l.send .howdy).2.sent } :=
  send_announceState l _ _

theorem unannounce_eq (l : Listener) : l.unannounce.2 =
    { l with announceState := .idle, sent := (l.send .exit).2.sent } :=
  congrArg (fun u : Listener => { u with announceState := .idle })
    (send_announceState l (.announcing .leaving) .exit)

theorem announceEvery_eq {interval : Nat} (h : l.joins (.announceEvery interval) = true) :
    ∃ ticker, l.announceEvery interval = (.ok (), { l.announce.2 with announcer := some ticker }) := by
  simp only [joins, Bool.and_eq_true, Bool.not_eq_true', decide_eq_true_eq] at h
  obtain ⟨⟨hopen, hnone⟩, hpos⟩ := h
  refine ⟨⟨interval, l.now + interval, hpos⟩, ?_⟩
  rw [announceEvery, hopen, hnone, Ticker.every?, dif_pos hpos]
  rfl

theorem announceEvery_refused {interval : Nat} (h : l.joins (.announceEvery interval) = false) :
    (l.announceEvery interval).2 = l := by
  unfold announceEvery
  split
  · rfl
  · next hopen =>
    split
    · rfl
    · next hnone =>
      have hzero : ¬ 0 < interval := by
        intro hpos
        simp [joins, hopen, hnone, hpos] at h
      rw [Ticker.every?, dif_neg hzero]

theorem close_recurring (hopen : l.closed = false) (hrecurs : l.announcer.isSome = true) :
    l.close = (.ok (), { l with
      announceState := .idle
      sent := (l.send .exit).2.sent
      announcer := none
      closed := true
      scan := l.scan.map Scan.stop }) := by
  rw [close, hopen, hrecurs, if_neg Bool.false_ne_true, if_pos rfl, unannounce_eq]

theorem close_silent (hopen : l.closed = false) (hnone : l.announcer.isSome = false) :
    l.close = (.ok (), { l with announcer := none, closed := true, scan := l.scan.map Scan.stop }) := by
  rw [close, hopen, hnone, if_neg Bool.false_ne_true, if_neg Bool.false_ne_true]

theorem close_refused (hclosed : l.closed = true) : l.close = (.error .notRunning, l) := by
  rw [close, if_pos hclosed]

/-- The moves that only announce something, or let the time pass. -/
def Move.Announces : Move → Prop
  | .announce | .unannounce | .announceEvery _ | .advance _ | .wait _ => True
  | _ => False

/-- Such a move leaves who we are, the scan and the queue. -/
theorem move_keeps (hm : m.Announces) : (l.move m).profile = l.profile ∧ (l.move m).scan = l.scan ∧
    (l.move m).incoming = l.incoming := by
  cases m with
  | announce =>
    rw [move, announce_eq]
    exact ⟨rfl, rfl, rfl⟩
  | unannounce =>
    rw [move, unannounce_eq]
    exact ⟨rfl, rfl, rfl⟩
  | announceEvery interval =>
    cases hjoins : l.joins (.announceEvery interval) with
    | false =>
      rw [move, announceEvery_refused hjoins]
      exact ⟨rfl, rfl, rfl⟩
    | true =>
      obtain ⟨ticker, hevery⟩ := announceEvery_eq hjoins
      rw [move, hevery, announce_eq]
      exact ⟨rfl, rfl, rfl⟩
  | advance milliseconds => exact moveTo_keeps l _ Ticker.fires
  | wait milliseconds => exact moveTo_keeps l _ Ticker.runs
  | _ => cases hm

/-! ## What a move does -/

/-- A move that comes neither with our arrival nor with our departure lets the listener go on, closed if
the move closes it. -/
theorem goes_move (hjoins : l.joins m = false) (hleaves : l.leaves m = false) :
    Goes { l with closed := decide (m = .close) || l.closed } (l.move m) := by
  cases m with
  | announce => cases hjoins
  | unannounce => cases hleaves
  | announceEvery interval =>
    rw [move, announceEvery_refused hjoins]
    exact .refl l
  | advance milliseconds => exact goes_moveTo l _ Ticker.fires
  | wait milliseconds => exact goes_moveTo l _ Ticker.runs
  | deliver d => exact .of_outward (outward_deliver l d)
  | discover timeout => exact goes_discover l timeout
  | startScan capacity => exact .of_outward (outward_startScan l capacity)
  | nextEvent => exact .of_outward (outward_nextEvent l)
  | dropEvents => exact .of_outward (outward_dropEvents l)
  | close =>
    cases hclosed : l.closed with
    | true =>
      rw [move, close_refused hclosed]
      exact ⟨rfl, rfl, rfl, rfl, hclosed, fun _ => ⟨0, (List.append_nil _).symm, fun _ => rfl⟩⟩
    | false =>
      have hnone : l.announcer.isSome = false := by
        rw [leaves, hclosed] at hleaves
        exact hleaves
      rw [move, close_silent hclosed hnone]
      exact ⟨rfl, rfl, rfl, hnone.symm, rfl, fun _ => ⟨0, (List.append_nil _).symm, fun _ => rfl⟩⟩

/-- A move that comes with our arrival. -/
theorem move_joins (h : l.joins m = true) : l.move m = { l with
    announceState := .announcing .present
    sent := (l.send .howdy).2.sent
    announcer := (l.move m).announcer
    closed := decide (m = .close) || l.closed } := by
  cases m with
  | announce =>
    rw [move, announce_eq]
    rfl
  | announceEvery interval =>
    obtain ⟨ticker, hevery⟩ := announceEvery_eq h
    rw [move, hevery, announce_eq]
    rfl
  | _ => cases h

/-- A move that comes with our departure. -/
theorem move_leaves (h : l.leaves m = true) : l.move m = { l with
    announceState := .idle
    sent := (l.send .exit).2.sent
    announcer := (l.move m).announcer
    closed := decide (m = .close) || l.closed
    scan := (l.move m).scan } := by
  cases m with
  | unannounce =>
    rw [move, unannounce_eq]
    rfl
  | close =>
    simp only [leaves, Bool.and_eq_true, Bool.not_eq_true'] at h
    rw [move, close_recurring h.1 h.2]
    rfl
  | _ => cases h

/-- **What we last told the network changes with our arrivals and departures alone**, and a listener is
closed once. -/
theorem state_move (l : Listener) (m : Move) :
    (l.move m).announceState = (if l.joins m then .announcing .present
      else if l.leaves m then .idle else l.announceState) ∧
    (l.move m).closed = (decide (m = .close) || l.closed) ∧
    (l.move m).profile = l.profile ∧ (l.move m).targets = l.targets := by
  cases hjoins : l.joins m with
  | true =>
    rw [move_joins hjoins]
    exact ⟨rfl, rfl, rfl, rfl⟩
  | false =>
    cases hleaves : l.leaves m with
    | true =>
      rw [move_leaves hleaves]
      exact ⟨rfl, rfl, rfl, rfl⟩
    | false =>
      have hgoes := goes_move hjoins hleaves
      exact ⟨hgoes.announceState, hgoes.closed, hgoes.profile, hgoes.targets⟩

theorem Reaches.move (h : l.Reaches) (m : Move) :
    (l.move m).Reaches ∧ (l.move m).reach = l.reach := by
  obtain ⟨-, -, hprofile, htargets⟩ := state_move l m
  refine ⟨h.of_same hprofile htargets, ?_⟩
  rw [reach, htargets]
  rfl

theorem Reaches.after (h : l.Reaches) (ms : List Move) :
    (l.after ms).Reaches ∧ (l.after ms).reach = l.reach := by
  induction ms generalizing l with
  | nil => exact ⟨h, rfl⟩
  | cons m ms ih =>
    obtain ⟨hreaches, hreach⟩ := h.move m
    obtain ⟨hreaches', hreach'⟩ := ih hreaches
    exact ⟨hreaches', hreach'.trans hreach⟩

/-- **A move tells the network of our arrival or of our departure**, or it repeats what recurs. -/
theorem Reaches.told_move (h : l.Reaches) (m : Move) :
    (l.joins m = true → (l.move m).told = l.told ++ List.replicate l.reach .howdy) ∧
    (l.leaves m = true → (l.move m).told = l.told ++ List.replicate l.reach .exit) ∧
    (l.joins m = false → l.leaves m = false → ∃ k,
      (l.move m).told = l.told ++ List.replicate k .howdy ∧ (l.announcer = none → k = 0)) := by
  refine ⟨fun hjoins => ?_, fun hleaves => ?_, fun hjoins hleaves => ?_⟩
  · rw [← h.told_send, move_joins hjoins]
    rfl
  · rw [← h.told_send, move_leaves hleaves]
    rfl
  · exact (goes_move hjoins hleaves).told (h.of_same rfl rfl)

/-- **Announcements recur from the call for them until the listener is closed.** -/
theorem announcer_move (l : Listener) (m : Move) : (l.move m).announcer.isSome =
    match m with
    | .announceEvery _ => l.joins m || l.announcer.isSome
    | .close => l.closed && l.announcer.isSome
    | _ => l.announcer.isSome := by
  cases m with
  | announce => rw [move, announce_eq]
  | unannounce => rw [move, unannounce_eq]
  | announceEvery interval =>
    cases hjoins : l.joins (.announceEvery interval) with
    | true =>
      obtain ⟨ticker, hevery⟩ := announceEvery_eq hjoins
      rw [move, hevery]
      rfl
    | false =>
      rw [move, announceEvery_refused hjoins]
      rfl
  | close =>
    cases hclosed : l.closed with
    | true =>
      rw [move, close_refused hclosed]
      rfl
    | false =>
      cases hrecurs : l.announcer.isSome with
      | true =>
        rw [move, close_recurring hclosed hrecurs]
        rfl
      | false =>
        rw [move, close_silent hclosed hrecurs]
        rfl
  | _ => exact (goes_move rfl rfl).announcer

end Listener

end BoothLink
